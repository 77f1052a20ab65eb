/-
  POLLING: the poll loop of `Runtime::run` against a server that forgets what is confirmed.

  A request of `getUpdates` says, by its offset, which updates the server may forget.  The loop drops a
  poll whenever another branch of its `select!` wins; the request may be on its way, be received later, or
  have been answered.  So the server here receives any request ever made, at any time and any number of
  times, and what a dropped or failed poll was answered is gone.

  1. **`PollState`**: the server, the requests, and the loop with its `offset` and its `phase`.
  2. **`Steps`**: what a step does, one constructor per event (`steps_of_step`).
  3. **`Polled`**: the offset parts the updates that have come in.  Those below it are processed, in
     order; those from it on are kept; and what the loop is given next begins with the first of them.
  4. **`updates_processed`**: each update at most once and in order, and none is forgotten before its turn.
     **`dispatched_eq`** says what the loop has handed on, and to which branch of its body.

  The server is that of the Bot API: it keeps the updates that have come in until a request with a higher
  offset confirms them, and answers a request with some of those that it keeps, the first ones, from the
  offset on.  Ids increase, and they are not negative (`NoNegativeIds`); the first offset is 0, so an
  update with a negative id could be forgotten unseen, and `negativeId_forgotten` is a run in which it is.

  `Polled` is the one invariant.  It says where the offset stands between what is processed and what is
  kept, that no request made so far asks for more than the offset, and, by the phase, what the answer in
  flight or in hand may contain.  The offset is raised when an update is taken up, one round of the loop
  over a batch at a time, and nothing comes between the rounds of a batch: `shutdown` and the other
  branches are looked at while the loop selects.

  The body of the loop is `Update.dispatch`: an update is a membership change, a message that goes to its
  chat's worker, or neither.  What the two branches then do is not part of this model.
-/
import Tellm.Lib.Runs

namespace Tellm

open Runs

/-! ## Updates -/

/-- `tellm_telegram::Update`, with what the loop looks at. -/
structure Update (Member Message : Type) where
  updateId : Int
  message : Option Message
  myChatMember : Option Member
deriving DecidableEq

/-- What the loop makes of an update. -/
inductive UpdateBranch (Member Message : Type)
  | handleMembershipChange (membership : Member)
  | handleUpdate (message : Message)
  | ignored

namespace Update

variable {Member Message : Type}

/-- `dispatchable_message`: an edited message is only logged. -/
def dispatchableMessage (update : Update Member Message) : Option Message := update.message

/-- The branch of the loop's body that the update takes. -/
def dispatch (update : Update Member Message) : UpdateBranch Member Message :=
  match update.myChatMember with
  | some membership => .handleMembershipChange membership
  | none =>
    match update.dispatchableMessage with
    | some message => .handleUpdate message
    | none => .ignored

/-- An `i64` below `i64::MAX`. -/
def InRange (update : Update Member Message) : Prop :=
  -2 ^ 63 ≤ update.updateId ∧ update.updateId < 2 ^ 63 - 1

instance (update : Update Member Message) : Decidable update.InRange :=
  inferInstanceAs (Decidable (_ ∧ _))

end Update

/-- `offset.max(update_id + 1)`, with the sum of two `i64`. -/
def nextOffset (offset updateId : Int) : Int := max offset (Int.bmod (updateId + 1) (2 ^ 64))

/-! ## The loop and the server -/

section

variable (U : Type)

/-- A poll that the loop waits for. -/
structure PendingPoll where
  received : Bool
  answer : Option (List U)

/-- Where the poll loop is. -/
inductive PollPhase
  | selecting
  | polling (poll : PendingPoll U)
  | processing (updates : List U)
  | sleeping
  | stopped

/-- The server with what it keeps, and the loop with its offset. -/
structure PollState where
  /-- What the server keeps, by increasing id. -/
  kept : List U
  newest : Option Int
  /-- The offsets of all requests made so far. -/
  requests : List Int
  offset : Int
  phase : PollPhase U

/-- What the server does, what happens to a request, and what the loop does. -/
inductive PollEvent
  /-- The server gets a new update. -/
  | arrive (update : U)
  /-- `select!` polls `get_updates(offset, …)`. -/
  | getUpdates
  /-- The server receives a request; `receiveLate` is one that nobody waits for. -/
  | receive
  | receiveLate (offset : Int)
  /-- The server answers with the first `count` updates that it keeps. -/
  | answer (count : Nat)
  /-- Another branch of `select!` wins, and the loop goes on; `shutdown` breaks it. -/
  | otherBranch
  | shutdown
  | pollOk
  | pollErr
  | wake
  /-- One round of the loop over the updates. -/
  | process
  | batchDone

end

variable {Member Message : Type}

/-- The state for the bot's own updates. -/
abbrev UpdateState (Member Message : Type) := PollState (Update Member Message)

/-- The events for the bot's own updates. -/
abbrev UpdateEvent (Member Message : Type) := PollEvent (Update Member Message)

namespace PollState

/-- The loop as it starts. -/
def start : UpdateState Member Message := ⟨[], none, [], 0, .selecting⟩

/-- The server forgets what is below the offset of a request. -/
def forget (s : UpdateState Member Message) (offset : Int) : UpdateState Member Message :=
  { s with kept := s.kept.filter fun update => offset ≤ update.updateId }

/-- The id is greater than those before. -/
def isNewer (s : UpdateState Member Message) (update : Update Member Message) : Bool :=
  s.newest.all fun newest => newest < update.updateId

/-- One step, whoever makes it. -/
def step (s : UpdateState Member Message) :
    UpdateEvent Member Message → Option (UpdateState Member Message)
  | .arrive update =>
    if update.InRange ∧ s.isNewer update = true then
      some { s with kept := s.kept ++ [update], newest := some update.updateId }
    else none
  | .getUpdates =>
    match s.phase with
    | .selecting => some { s with requests := s.offset :: s.requests, phase := .polling ⟨false, none⟩ }
    | _ => none
  | .receive =>
    match s.phase with
    | .polling poll => some { s.forget s.offset with phase := .polling { poll with received := true } }
    | _ => none
  | .receiveLate offset => if offset ∈ s.requests then some (s.forget offset) else none
  | .answer count =>
    match s.phase with
    | .polling poll =>
      if poll.received then some { s with phase := .polling { poll with answer := some (s.kept.take count) } }
      else none
    | _ => none
  | .otherBranch =>
    match s.phase with
    | .polling _ => some { s with phase := .selecting }
    | _ => none
  | .shutdown =>
    match s.phase with
    | .polling _ => some { s with phase := .stopped }
    | _ => none
  | .pollOk =>
    match s.phase with
    | .polling ⟨_, some updates⟩ => some { s with phase := .processing updates }
    | _ => none
  | .pollErr =>
    match s.phase with
    | .polling _ => some { s with phase := .sleeping }
    | _ => none
  | .wake =>
    match s.phase with
    | .sleeping => some { s with phase := .selecting }
    | _ => none
  | .process =>
    match s.phase with
    | .processing (update :: updates) =>
      some { s with offset := nextOffset s.offset update.updateId, phase := .processing updates }
    | _ => none
  | .batchDone =>
    match s.phase with
    | .processing [] => some { s with phase := .selecting }
    | _ => none

/-- What a step does. -/
inductive Steps (s : UpdateState Member Message) :
    UpdateEvent Member Message → UpdateState Member Message → Prop
  | arrive {update} : update.InRange → s.isNewer update = true →
      Steps s (.arrive update) { s with kept := s.kept ++ [update], newest := some update.updateId }
  | getUpdates : s.phase = .selecting → Steps s .getUpdates
      { s with requests := s.offset :: s.requests, phase := .polling ⟨false, none⟩ }
  | receive {poll} : s.phase = .polling poll →
      Steps s .receive { s.forget s.offset with phase := .polling { poll with received := true } }
  | receiveLate {offset} : offset ∈ s.requests → Steps s (.receiveLate offset) (s.forget offset)
  | answer {poll count} : s.phase = .polling poll → poll.received = true →
      Steps s (.answer count) { s with phase := .polling { poll with answer := some (s.kept.take count) } }
  | otherBranch {poll} : s.phase = .polling poll → Steps s .otherBranch { s with phase := .selecting }
  | shutdown {poll} : s.phase = .polling poll → Steps s .shutdown { s with phase := .stopped }
  | pollOk {received updates} : s.phase = .polling ⟨received, some updates⟩ →
      Steps s .pollOk { s with phase := .processing updates }
  | pollErr {poll} : s.phase = .polling poll → Steps s .pollErr { s with phase := .sleeping }
  | wake : s.phase = .sleeping → Steps s .wake { s with phase := .selecting }
  | process {update updates} : s.phase = .processing (update :: updates) → Steps s .process
      { s with offset := nextOffset s.offset update.updateId, phase := .processing updates }
  | batchDone : s.phase = .processing [] → Steps s .batchDone { s with phase := .selecting }

theorem steps_of_step {s s' : UpdateState Member Message} {e : UpdateEvent Member Message}
    (h : s.step e = some s') : s.Steps e s' := by
  cases e with
  | arrive update =>
    rw [step] at h
    split at h
    · rename_i hnew
      cases h
      exact .arrive hnew.1 hnew.2
    · cases h
  | receiveLate offset =>
    rw [step] at h
    split at h
    · rename_i hmem
      cases h
      exact .receiveLate hmem
    · cases h
  | answer count =>
    rw [step] at h
    split at h
    · rename_i hphase
      split at h
      · rename_i hreceived
        cases h
        exact .answer hphase hreceived
      · cases h
    · cases h
  | getUpdates =>
    rw [step] at h
    split at h
    · rename_i hphase
      cases h
      exact .getUpdates hphase
    · cases h
  | receive =>
    rw [step] at h
    split at h
    · rename_i hphase
      cases h
      exact .receive hphase
    · cases h
  | otherBranch =>
    rw [step] at h
    split at h
    · rename_i hphase
      cases h
      exact .otherBranch hphase
    · cases h
  | shutdown =>
    rw [step] at h
    split at h
    · rename_i hphase
      cases h
      exact .shutdown hphase
    · cases h
  | pollOk =>
    rw [step] at h
    split at h
    · rename_i hphase
      cases h
      exact .pollOk hphase
    · cases h
  | pollErr =>
    rw [step] at h
    split at h
    · rename_i hphase
      cases h
      exact .pollErr hphase
    · cases h
  | wake =>
    rw [step] at h
    split at h
    · rename_i hphase
      cases h
      exact .wake hphase
    · cases h
  | process =>
    rw [step] at h
    split at h
    · rename_i hphase
      cases h
      exact .process hphase
    · cases h
  | batchDone =>
    rw [step] at h
    split at h
    · rename_i hphase
      cases h
      exact .batchDone hphase
    · cases h

end PollState

/-- The loop and the server as a system. -/
def pollSystem : Sys (UpdateState Member Message) (UpdateEvent Member Message) := ⟨PollState.step⟩

/-- The steps so far, newest first. -/
abbrev PollHistory (Member Message : Type) :=
  List (UpdateState Member Message × UpdateEvent Member Message)

/-- The update that the step brings to the server. -/
def arrival (x : UpdateState Member Message × UpdateEvent Member Message) :
    Option (Update Member Message) :=
  match x.2 with
  | .arrive update => some update
  | _ => none

/-- The update that the step processes. -/
def processing (x : UpdateState Member Message × UpdateEvent Member Message) :
    Option (Update Member Message) :=
  match x.2, x.1.phase with
  | .process, .processing (update :: _) => some update
  | _, _ => none

/-- The updates that have come in so far, in order. -/
def arrivals (h : PollHistory Member Message) : List (Update Member Message) :=
  h.reverse.filterMap arrival

/-- The updates processed so far, in order. -/
def processed (h : PollHistory Member Message) : List (Update Member Message) :=
  h.reverse.filterMap processing

/-- What has been handed on so far, in order: to `handle_membership_change`, to `handle_update`, or to
    nobody. -/
def dispatched (h : PollHistory Member Message) : List (UpdateBranch Member Message) :=
  (processed h).map Update.dispatch

theorem arrivals_cons (x : UpdateState Member Message × UpdateEvent Member Message)
    (h : PollHistory Member Message) : arrivals (x :: h) = arrivals h ++ (arrival x).toList := by
  rw [arrivals, List.reverse_cons, List.filterMap_append]
  cases h : arrival x <;> simp [h, arrivals]

theorem processed_cons (x : UpdateState Member Message × UpdateEvent Member Message)
    (h : PollHistory Member Message) : processed (x :: h) = processed h ++ (processing x).toList := by
  rw [processed, List.reverse_cons, List.filterMap_append]
  cases h : processing x <;> simp [h, processed]

/-! ## The offset parts the updates -/

/-- By increasing id. -/
def Increasing (updates : List (Update Member Message)) : Prop :=
  updates.Pairwise fun update later => update.updateId < later.updateId

theorem nextOffset_eq {update : Update Member Message} (h : update.InRange) (offset : Int) :
    nextOffset offset update.updateId = max offset (update.updateId + 1) := by
  obtain ⟨hlow, hhigh⟩ := h
  rw [nextOffset, Int.bmod_eq_of_le] <;> omega

/-- The first updates that there are from the offset on. -/
structure Batch (arrived : List (Update Member Message)) (offset : Int)
    (updates : List (Update Member Message)) : Prop where
  increasing : Increasing updates
  known : ∀ update ∈ updates, update ∈ arrived ∧ offset ≤ update.updateId
  first : ∀ update ∈ arrived, offset ≤ update.updateId → update ∉ updates →
    ∀ earlier ∈ updates, earlier.updateId < update.updateId

/-- What the loop holds is the first updates from its offset on. -/
def PollPhase.Ready (arrived : List (Update Member Message)) (s : UpdateState Member Message) :
    PollPhase (Update Member Message) → Prop
  | polling poll => (poll.received = true → ∀ update ∈ s.kept, s.offset ≤ update.updateId) ∧
      ∀ updates, poll.answer = some updates → Batch arrived s.offset updates
  | processing updates => Batch arrived s.offset updates
  | _ => True

/-- **The offset parts the updates** that have come in: those from the offset on are still kept by the server,
    those below it have been finished, in the order of their ids. It speaks of the whole history, hence of
    every answer so far and not of the last one alone. -/
structure Polled (arrived finished : List (Update Member Message)) (s : UpdateState Member Message) :
    Prop where
  inRange : ∀ update ∈ arrived, update.InRange
  arrivedInOrder : Increasing arrived
  newest : ∀ update ∈ arrived, ∃ newest, s.newest = some newest ∧ update.updateId ≤ newest
  increasing : Increasing s.kept
  known : ∀ update ∈ s.kept, update ∈ arrived
  reached : s.offset = 0 ∨ ∃ update ∈ arrived, s.offset = update.updateId + 1
  requests : ∀ offset ∈ s.requests, offset ≤ s.offset
  kept : ∀ update ∈ arrived, s.offset ≤ update.updateId → update ∈ s.kept
  done : ∀ update ∈ arrived, update.updateId < s.offset → update ∈ finished
  inOrder : Increasing finished
  finishedKnown : ∀ update ∈ finished, update ∈ arrived
  below : ∀ update ∈ finished, update.updateId < s.offset
  ready : s.phase.Ready arrived s

section Step

variable {arrived finished : List (Update Member Message)} {s s' : UpdateState Member Message}
  {updates : List (Update Member Message)} {update : Update Member Message}

/-- The first updates that are kept, where all of them are due. -/
theorem Polled.batch (hp : Polled arrived finished s) (hdue : ∀ update ∈ s.kept, s.offset ≤ update.updateId)
    (count : Nat) : Batch arrived s.offset (s.kept.take count) where
  increasing := hp.increasing.sublist (List.take_sublist _ _)
  known update hmem := ⟨hp.known update (List.mem_of_mem_take hmem), hdue update (List.mem_of_mem_take hmem)⟩
  first := by
    intro update hmem hle hnot earlier hearlier
    have hkept := hp.kept update hmem hle
    rw [← List.take_append_drop count s.kept] at hkept
    have hlater := (List.mem_append.mp hkept).resolve_left hnot
    have hsorted := hp.increasing
    rw [Increasing, ← List.take_append_drop count s.kept] at hsorted
    exact (List.pairwise_append.mp hsorted).2.2 earlier hearlier update hlater

/-- A new update comes behind those that there are. -/
theorem Batch.arrive {offset : Int} (hb : Batch arrived offset updates)
    (hnew : ∀ earlier ∈ arrived, earlier.updateId < update.updateId) :
    Batch (arrived ++ [update]) offset updates where
  increasing := hb.increasing
  known earlier hmem := ⟨List.mem_append_left _ (hb.known earlier hmem).1, (hb.known earlier hmem).2⟩
  first := by
    intro later hmem hle hnot earlier hearlier
    rcases List.mem_append.mp hmem with hmem | hmem
    · exact hb.first later hmem hle hnot earlier hearlier
    · rw [List.mem_singleton.mp hmem]
      exact hnew earlier (hb.known earlier hearlier).1

/-- What is below the offset is not missed. -/
theorem Polled.forget (hp : Polled arrived finished s) {offset : Int} (hle : offset ≤ s.offset) :
    Polled arrived finished (s.forget offset) where
  inRange := hp.inRange
  arrivedInOrder := hp.arrivedInOrder
  newest := hp.newest
  increasing := hp.increasing.filter _
  known update hmem := hp.known update (List.mem_filter.mp hmem).1
  reached := hp.reached
  requests := hp.requests
  kept update hmem hdue := List.mem_filter.mpr ⟨hp.kept update hmem hdue, decide_eq_true (hle.trans hdue)⟩
  done := hp.done
  inOrder := hp.inOrder
  finishedKnown := hp.finishedKnown
  below := hp.below
  ready := by
    have hready := hp.ready
    show s.phase.Ready arrived (s.forget offset)
    cases hphase : s.phase with
    | polling poll =>
      rw [hphase] at hready
      exact ⟨fun hreceived update hmem => hready.1 hreceived update (List.mem_filter.mp hmem).1, hready.2⟩
    | processing updates =>
      rw [hphase] at hready
      exact hready
    | _ => trivial

/-- Another phase, that is ready too. -/
theorem Polled.phase (hp : Polled arrived finished s) {phase : PollPhase (Update Member Message)}
    (hready : phase.Ready arrived s) : Polled arrived finished { s with phase := phase } :=
  { hp with ready := by cases phase <;> exact hready }

theorem Polled.newer (hp : Polled arrived finished s) (hnew : s.isNewer update = true) :
    ∀ earlier ∈ arrived, earlier.updateId < update.updateId := by
  intro earlier hmem
  obtain ⟨newest, hnewest, hle⟩ := hp.newest earlier hmem
  rw [PollState.isNewer, hnewest, Option.all_some, decide_eq_true_eq] at hnew
  exact hle.trans_lt hnew

/-- An update that comes in is behind the offset. -/
theorem Polled.arrive (hp : Polled arrived finished s) (hrange : update.InRange)
    (hnew : s.isNewer update = true) (hdue : s.offset ≤ update.updateId) :
    Polled (arrived ++ [update]) finished
      { s with kept := s.kept ++ [update], newest := some update.updateId } where
  inRange := by
    intro other hmem
    rcases List.mem_append.mp hmem with hmem | hmem
    · exact hp.inRange other hmem
    · rw [List.mem_singleton.mp hmem]
      exact hrange
  arrivedInOrder := by
    refine List.pairwise_append.mpr ⟨hp.arrivedInOrder, List.pairwise_singleton _ _, ?_⟩
    intro earlier hearlier other hmem
    rw [List.mem_singleton.mp hmem]
    exact hp.newer hnew earlier hearlier
  newest := by
    intro other hmem
    refine ⟨update.updateId, rfl, ?_⟩
    rcases List.mem_append.mp hmem with hmem | hmem
    · exact Int.le_of_lt (hp.newer hnew other hmem)
    · rw [List.mem_singleton.mp hmem]
  increasing := by
    refine List.pairwise_append.mpr ⟨hp.increasing, List.pairwise_singleton _ _, ?_⟩
    intro earlier hearlier other hmem
    rw [List.mem_singleton.mp hmem]
    exact hp.newer hnew earlier (hp.known earlier hearlier)
  known := by
    intro other hmem
    rcases List.mem_append.mp hmem with hmem | hmem
    · exact List.mem_append_left _ (hp.known other hmem)
    · exact List.mem_append_right _ hmem
  reached := by
    refine hp.reached.imp_right ?_
    rintro ⟨other, hmem, hoffset⟩
    exact ⟨other, List.mem_append_left _ hmem, hoffset⟩
  requests := hp.requests
  kept := by
    intro other hmem hle
    rcases List.mem_append.mp hmem with hmem | hmem
    · exact List.mem_append_left _ (hp.kept other hmem hle)
    · exact List.mem_append_right _ hmem
  done := by
    intro other hmem hlt
    rcases List.mem_append.mp hmem with hmem | hmem
    · exact hp.done other hmem hlt
    · rw [List.mem_singleton.mp hmem] at hlt
      exact absurd hdue (Int.not_le.mpr hlt)
  inOrder := hp.inOrder
  finishedKnown other hmem := List.mem_append_left _ (hp.finishedKnown other hmem)
  below := hp.below
  -- what comes in is newer than everything, so it is due behind what the poll holds
  ready := by
    have hready := hp.ready
    cases hphase : s.phase with
    | polling poll =>
      rw [hphase] at hready
      refine ⟨fun hreceived other hmem => ?_,
        fun updates hanswer => (hready.2 updates hanswer).arrive (hp.newer hnew)⟩
      rcases List.mem_append.mp hmem with hmem | hmem
      · exact hready.1 hreceived other hmem
      · rw [List.mem_singleton.mp hmem]
        exact hdue
    | processing updates =>
      rw [hphase] at hready
      exact Batch.arrive hready (hp.newer hnew)
    | _ => trivial

/-- **One round of the loop**: the first update that is due, and none is passed over. -/
theorem Polled.process (hp : Polled arrived finished s) (hphase : s.phase = .processing (update :: updates)) :
    Polled arrived (finished ++ [update])
      { s with offset := nextOffset s.offset update.updateId, phase := .processing updates } := by
  have hbatch : Batch arrived s.offset (update :: updates) := by
    have hready := hp.ready
    rw [hphase] at hready
    exact hready
  obtain ⟨hmem, hdue⟩ := hbatch.known update List.mem_cons_self
  have hoffset : nextOffset s.offset update.updateId = update.updateId + 1 := by
    rw [nextOffset_eq (hp.inRange update hmem)]
    omega
  obtain ⟨hlater, hincreasing⟩ := List.pairwise_cons.mp hbatch.increasing
  rw [hoffset]
  refine ⟨hp.inRange, hp.arrivedInOrder, hp.newest, hp.increasing, hp.known, Or.inr ⟨update, hmem, rfl⟩,
    ?_, ?_, ?_, ?_, ?_, ?_, ?_⟩
  · intro offset hoffset
    have hle := hp.requests offset hoffset
    dsimp only
    omega
  · intro other hother hle
    exact hp.kept other hother (by dsimp only at hle; omega)
  · intro other hother hlt
    dsimp only at hlt
    by_cases hbelow : other.updateId < s.offset
    · exact List.mem_append_left _ (hp.done other hother hbelow)
    · -- it is due, and not behind this one: it is this one
      have hin : other ∈ update :: updates := by
        by_contra hnot
        have hbehind := hbatch.first other hother (Int.not_lt.mp hbelow) hnot update List.mem_cons_self
        omega
      rcases List.mem_cons.mp hin with rfl | hin
      · exact List.mem_append_right _ List.mem_cons_self
      · have hbehind := hlater other hin
        omega
  · refine List.pairwise_append.mpr ⟨hp.inOrder, List.pairwise_singleton _ _, ?_⟩
    intro earlier hearlier other hother
    rw [List.mem_singleton.mp hother]
    exact (hp.below earlier hearlier).trans_le hdue
  · intro other hother
    rcases List.mem_append.mp hother with hother | hother
    · exact hp.finishedKnown other hother
    · rw [List.mem_singleton.mp hother]
      exact hmem
  · intro other hother
    dsimp only
    rcases List.mem_append.mp hother with hother | hother
    · have hlt := hp.below other hother
      omega
    · rw [List.mem_singleton.mp hother]
      omega
  · refine ⟨hincreasing, ?_, ?_⟩
    · intro other hother
      have hlt := hlater other hother
      dsimp only
      exact ⟨(hbatch.known other (List.mem_cons_of_mem _ hother)).1, by omega⟩
    · intro other hother hle hnot earlier hearlier
      dsimp only at hle
      refine hbatch.first other hother (by omega) ?_ earlier (List.mem_cons_of_mem _ hearlier)
      rw [List.mem_cons, not_or]
      refine ⟨?_, hnot⟩
      rintro rfl
      omega

end Step

/-- What a step adds to the updates that have come in, and to those that are processed. -/
theorem Polled.step {arrived finished : List (Update Member Message)} {s s' : UpdateState Member Message}
    {e : UpdateEvent Member Message} (hp : Polled arrived finished s) (hs : s.Steps e s')
    (hdue : ∀ update, e = .arrive update → s.offset ≤ update.updateId) :
    Polled (arrived ++ (arrival (s, e)).toList) (finished ++ (processing (s, e)).toList) s' := by
  have hready := hp.ready
  -- all but an arrival and a round of the loop leave both lists as they were
  have hquiet : arrival (s, e) = none → processing (s, e) = none → Polled arrived finished s' →
      Polled (arrived ++ (arrival (s, e)).toList) (finished ++ (processing (s, e)).toList) s' := by
    intro harrival hprocessing hp'
    rw [harrival, hprocessing, Option.toList_none, List.append_nil, List.append_nil]
    exact hp'
  cases hs with
  | @arrive update hrange hnew =>
    show Polled (arrived ++ [update]) (finished ++ []) _
    rw [List.append_nil]
    exact hp.arrive hrange hnew (hdue update rfl)
  | @process update updates hphase =>
    have hprocessing : processing (s, PollEvent.process) = some update := by
      simp only [processing, hphase]
    rw [hprocessing]
    show Polled (arrived ++ []) (finished ++ [update]) _
    rw [List.append_nil]
    exact hp.process hphase
  | getUpdates hphase =>
    refine hquiet rfl rfl ?_
    refine { hp with requests := ?_, ready := ⟨fun h => (by cases h), fun _ h => (by cases h)⟩ }
    exact List.forall_mem_cons.mpr ⟨Int.le_refl _, hp.requests⟩
  | @receive poll hphase =>
    refine hquiet rfl rfl ?_
    rw [hphase] at hready
    refine (hp.forget (Int.le_refl _)).phase ⟨fun _ update hmem => ?_, hready.2⟩
    exact of_decide_eq_true (List.mem_filter.mp hmem).2
  | @receiveLate offset hmem =>
    refine hquiet rfl rfl ?_
    exact hp.forget (hp.requests offset hmem)
  | @answer poll count hphase hreceived =>
    refine hquiet rfl rfl ?_
    rw [hphase] at hready
    refine hp.phase ⟨hready.1, fun updates hanswer => ?_⟩
    cases hanswer
    exact hp.batch (hready.1 hreceived) count
  | pollOk hphase =>
    refine hquiet rfl rfl ?_
    rw [hphase] at hready
    exact hp.phase (hready.2 _ rfl)
  | _ =>
    exact hquiet rfl rfl (hp.phase trivial)

/-- No id is negative. -/
def NoNegativeIds (h : PollHistory Member Message) : Prop := ∀ update ∈ arrivals h, 0 ≤ update.updateId

theorem mem_arrivals {x : UpdateState Member Message × UpdateEvent Member Message}
    {h : PollHistory Member Message} {update : Update Member Message} :
    update ∈ arrivals (x :: h) ↔ update ∈ arrivals h ∨ x.2 = .arrive update := by
  rw [arrivals_cons, List.mem_append, Option.mem_toList]
  refine or_congr_right ?_
  unfold arrival
  split
  · rename_i other he
    rw [he, Option.some.injEq, PollEvent.arrive.injEq]
  · rename_i hnot
    exact ⟨fun h => (by cases h), fun he => absurd he (hnot update)⟩

/-- **Every run**, by induction on its steps: the offset parts the updates that have arrived, as long as no
    update has a negative id. -/
theorem Path.polled {h : PollHistory Member Message} {s : UpdateState Member Message}
    (p : Path pollSystem .start h s) (hids : NoNegativeIds h) : Polled (arrivals h) (processed h) s := by
  induction p with
  | start =>
    have hnone : ∀ update : Update Member Message, update ∉ ([] : List (Update Member Message)) := fun _ =>
      List.not_mem_nil
    exact ⟨fun _ hm => absurd hm (hnone _), List.Pairwise.nil, fun _ hm => absurd hm (hnone _),
      List.Pairwise.nil, fun _ hm => absurd hm (hnone _), Or.inl rfl, fun _ hm => absurd hm List.not_mem_nil,
      fun _ hm => absurd hm (hnone _), fun _ hm => absurd hm (hnone _), List.Pairwise.nil,
      fun _ hm => absurd hm (hnone _), fun _ hm => absurd hm (hnone _), trivial⟩
  | @step h s s' e p hs ih =>
    rw [arrivals_cons, processed_cons]
    have hids' : NoNegativeIds h := fun update hmem => hids update (mem_arrivals.mpr (Or.inl hmem))
    have hp := ih hids'
    have hsteps := PollState.steps_of_step hs
    refine hp.step hsteps ?_
    rintro update rfl
    have hnew : s.isNewer update = true := by
      cases hsteps with
      | arrive _ hnew => exact hnew
    rcases hp.reached with hoffset | ⟨earlier, hmem, hoffset⟩
    · rw [hoffset]
      exact hids update (mem_arrivals.mpr (Or.inr rfl))
    · have hlt := hp.newer hnew earlier hmem
      omega

/-! ## Every update at most once, and none lost -/

/-- **The updates are processed in order**, each at most once, and what the server has forgotten is
    processed. -/
theorem updates_processed {h : PollHistory Member Message} {s : UpdateState Member Message}
    (p : Path pollSystem .start h s) (hids : NoNegativeIds h) :
    Increasing (processed h) ∧ ∀ update ∈ arrivals h, update ∈ s.kept ∨ update ∈ processed h := by
  have hpolled := Path.polled p hids
  refine ⟨hpolled.inOrder, fun update hmem => ?_⟩
  by_cases hbelow : update.updateId < s.offset
  · exact Or.inr (hpolled.done update hmem hbelow)
  · exact Or.inl (hpolled.kept update hmem (Int.not_lt.mp hbelow))

/-- **What is dispatched** is what came in below the offset: each update once, in the order of arrival, by
    its own branch. -/
theorem dispatched_eq {h : PollHistory Member Message} {s : UpdateState Member Message}
    (p : Path pollSystem .start h s) (hids : NoNegativeIds h) :
    dispatched h = ((arrivals h).filter fun update => update.updateId < s.offset).map Update.dispatch := by
  have hpolled := Path.polled p hids
  have : Std.Irrefl fun update later : Update Member Message => update.updateId < later.updateId :=
    ⟨fun _ => Int.lt_irrefl _⟩
  have : Std.Antisymm fun update later : Update Member Message => update.updateId < later.updateId :=
    ⟨fun _ _ hlt hgt => absurd hgt (Int.lt_asymm hlt)⟩
  -- both lists go by increasing ids, and they have the same members
  refine congrArg (List.map Update.dispatch) ?_
  refine List.Pairwise.eq_of_mem_iff hpolled.inOrder (hpolled.arrivedInOrder.filter _) fun update => ?_
  rw [List.mem_filter, decide_eq_true_eq]
  constructor
  · exact fun hmem => ⟨hpolled.finishedKnown update hmem, hpolled.below update hmem⟩
  · exact fun hmem => hpolled.done update hmem.1 hmem.2

/-- The update with this id, which carries a message. -/
def textUpdate (updateId : Int) (message : String) : Update Unit String :=
  ⟨updateId, some message, none⟩

/-- A poll is dropped with its answer; the next one brings both updates, and the server is told once they are
    processed. -/
theorem updates_processed_dropped :
    ∃ (h : PollHistory Unit String) (s : UpdateState Unit String), Path pollSystem .start h s ∧
      processed h = [textUpdate 5 "a", textUpdate 6 "b"] ∧ s.kept = [] ∧ Increasing (processed h) ∧
      ∀ update ∈ arrivals h, update ∈ s.kept ∨ update ∈ processed h := by
  have hrun : (pollSystem.trace (PollState.start : UpdateState Unit String)
      [.arrive (textUpdate 5 "a"), .getUpdates, .receive, .answer 1, .otherBranch,
        .arrive (textUpdate 6 "b"), .getUpdates, .receive, .answer 2, .pollOk, .process, .process,
        .batchDone, .getUpdates, .receive, .receiveLate 0, .pollErr]).any (fun r =>
          decide (arrivals r.1 = [textUpdate 5 "a", textUpdate 6 "b"]) &&
            (decide (processed r.1 = [textUpdate 5 "a", textUpdate 6 "b"]) && decide (r.2.kept = []))) =
            true := by
    decide
  obtain ⟨h, s, p, hend⟩ := Sys.path_of_trace_any _ hrun
  simp only [Bool.and_eq_true, decide_eq_true_eq] at hend
  obtain ⟨harrivals, hprocessed, hkept⟩ := hend
  have hids : NoNegativeIds h := by
    rw [NoNegativeIds, harrivals]
    decide
  exact ⟨h, s, p, hprocessed, hkept, updates_processed p hids⟩

/-- **A negative id is forgotten**: the first request asks for offset 0. -/
theorem negativeId_forgotten :
    ∃ (h : PollHistory Unit String) (s : UpdateState Unit String), Path pollSystem .start h s ∧
      ∃ update ∈ arrivals h, update ∉ s.kept ∧ update ∉ processed h := by
  have hrun : (pollSystem.trace (PollState.start : UpdateState Unit String)
      [.arrive (textUpdate (-1) "a"), .getUpdates, .receive]).any (fun r =>
        decide (arrivals r.1 = [textUpdate (-1) "a"]) &&
          (decide (processed r.1 = []) && decide (r.2.kept = []))) = true := by
    decide
  obtain ⟨h, s, p, hend⟩ := Sys.path_of_trace_any _ hrun
  simp only [Bool.and_eq_true, decide_eq_true_eq] at hend
  obtain ⟨harrivals, hprocessed, hkept⟩ := hend
  refine ⟨h, s, p, textUpdate (-1) "a", ?_, ?_, ?_⟩
  · rw [harrivals]
    exact List.mem_cons_self
  · rw [hkept]
    exact List.not_mem_nil
  · rw [hprocessed]
    exact List.not_mem_nil

end Tellm
