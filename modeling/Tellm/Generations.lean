/-
  GENERATIONS: which results still reach a room.

  A turn reads the room's generation when it begins and shows it again when its result is in.  The
  counter wraps and holds no memory, so what it decides is a matter of counting invalidations.

  1. **One room** (`roomSys`): over any run with fewer than 2^64 invalidations, a turn's commit or
     rollback is accepted exactly when nothing invalidated the room since the turn began
     (`turn_decided`), and the history it meets is then the one its request was built from, plus
     commits.
  2. **A removed room** (`statesSys`): each incarnation of a chat's room starts counting at 0 again, so
     a token of a removed incarnation is refused exactly when the counts differ
     (`staleCall_refused_iff`); they may well agree (`staleCall_accepted`).

  The counter is a `u64` and wraps, so over an unbounded run equal tokens prove nothing.  The results
  therefore count: `bumps` is the number of invalidations between two moments, and two generations are
  equal exactly if the counts agree modulo 2^64.  Below that bound "equal" is "nothing happened", and
  above it the statement would be false.

  A room that is removed and made anew starts at generation 0, in the source as here.  Its incarnations
  are told apart by the history only (`RoomStates.InvalidatesRoom` has the removal), and the result about
  stale tokens is stated with the counts of BOTH incarnations: it is an equivalence, so it says as much
  about the calls that are wrongly accepted as about those that are refused.
-/
import Tellm.Rooms
import Tellm.Lib.Runs

namespace Tellm

open Runs

/-- What the counter can tell: two counts are the same generation when they agree modulo 2^64. -/
theorem ofNat_eq_iff_mod {a b : Nat} :
    UInt64.ofNat a = UInt64.ofNat b ↔ a % 2 ^ 64 = b % 2 ^ 64 := by
  rw [← UInt64.toNat_inj, UInt64.toNat_ofNat', UInt64.toNat_ofNat']

theorem ofNat_eq_zero {n : Nat} (h : n < 2 ^ 64) : UInt64.ofNat n = 0 ↔ n = 0 := by
  rw [show (0 : UInt64) = UInt64.ofNat 0 from rfl, ofNat_eq_iff_mod, Nat.mod_eq_of_lt h,
    Nat.zero_mod]

theorem ofNat_succ (n : Nat) : UInt64.ofNat (n + 1) = UInt64.ofNat n + 1 := UInt64.ofNat_add n 1

/-! ## One room -/

/-- Every operation is always enabled. -/
def roomSys : Sys RoomState RoomOp where
  step self op := some (self.apply op)

/-- The operations so far, newest first, each with the room it met. -/
abbrev RoomHistory := List (RoomState × RoomOp)

/-- How many operations of the history invalidated the work in flight. -/
def bumps (h : RoomHistory) : Nat := h.countP fun x => x.1.Invalidates x.2

/-- Nothing in the history invalidated the work in flight. -/
def Undisturbed (h : RoomHistory) : Prop := ∀ x ∈ h, ¬ x.1.Invalidates x.2

/-- What the commits of the history make of a room's history. -/
def replay (h : RoomHistory) (history : History) : History :=
  h.foldr (fun x history => (x.1.commits x.2).elim history (history.commit x.1.settings.mode)) history

theorem bumps_cons (x : RoomState × RoomOp) (h : RoomHistory) :
    bumps (x :: h) = bumps h + if x.1.Invalidates x.2 then 1 else 0 := by
  simp [bumps, List.countP_cons]

theorem bumps_append (newer older : RoomHistory) :
    bumps (newer ++ older) = bumps newer + bumps older :=
  List.countP_append

theorem bumps_eq_zero {h : RoomHistory} : bumps h = 0 ↔ Undisturbed h := by
  simp [bumps, Undisturbed, List.countP_eq_zero]

/-- The generation counts the invalidations. -/
theorem generation_path {s₀ s : RoomState} {h : RoomHistory} (p : Path roomSys s₀ h s) :
    s.generation = s₀.generation + UInt64.ofNat (bumps h) := by
  induction p with
  | start => exact (UInt64.add_zero _).symm
  | step p hs ih =>
    cases hs
    rw [RoomState.generation_apply, ih, bumps_cons, UInt64.ofNat_add, UInt64.add_assoc]
    split <;> rfl

/-- An undisturbed room keeps its wire format, and its history changes by commits only. -/
theorem undisturbed_path {s₀ s : RoomState} {h : RoomHistory} (p : Path roomSys s₀ h s) :
    Undisturbed h → s.wireFormat = s₀.wireFormat ∧ s.history = replay h s₀.history := by
  induction p with
  | start => exact fun _ => ⟨rfl, rfl⟩
  | step p hs ih =>
    intro hu
    cases hs
    obtain ⟨hw, hh⟩ := ih fun x hx => hu x (List.mem_cons_of_mem _ hx)
    obtain ⟨hw', hh'⟩ := RoomState.apply_of_not_invalidates (hu _ List.mem_cons_self)
    refine ⟨hw'.trans hw, ?_⟩
    rw [hh', hh]
    rfl

/-- The verdict on a turn that began in the wire format `wireFormat` with the generation `g` and the
    history `begun`, when the room is at `s` and `h` happened since. -/
structure TurnDecided (h : RoomHistory) (s : RoomState) (g : UInt64) (wireFormat : WireFormat)
    (begun : History) : Prop where
  commit_iff : ∀ turnItems,
    (s.appendTurnIfGeneration g wireFormat turnItems).2 = true ↔ Undisturbed h
  rollback_iff : ∀ rollback, (s.restoreFailedTurn g rollback).2 = true ↔ Undisturbed h
  /-- Accepted: the room still has the turn's wire format, its history is the one the request was built
      from plus commits, and the commit is one more. -/
  accepted : Undisturbed h → s.wireFormat = some wireFormat ∧ s.history = replay h begun ∧
    ∀ turnItems, (s.appendTurnIfGeneration g wireFormat turnItems).1 =
      { s with history := s.history.commit s.settings.mode turnItems }
  /-- Rejected: every field of the room is unchanged. -/
  rejected : ¬ Undisturbed h →
    (∀ turnItems, (s.appendTurnIfGeneration g wireFormat turnItems).1 = s) ∧
    (∀ rollback, (s.restoreFailedTurn g rollback).1 = s)

/-- **Generations decide exactly.**  In every run of the operations on one room with fewer than 2^64
    invalidations, from any state and with any number of turns in flight, the generation read right
    after `begin_turn` decides the turn's commit or rollback as `TurnDecided` says. -/
theorem turn_decided {s₀ m s : RoomState} {newer older : RoomHistory} {wireFormat : WireFormat}
    (p : Path roomSys s₀ (newer ++ (m, .beginTurn wireFormat) :: older) s)
    (hbumps : bumps (newer ++ (m, .beginTurn wireFormat) :: older) < 2 ^ 64) :
    TurnDecided newer s (m.beginTurn wireFormat).1.generation wireFormat
      (m.beginTurn wireFormat).1.history := by
  obtain ⟨m', -, hs, q⟩ := p.cut
  obtain rfl : (m.beginTurn wireFormat).1 = m' := Option.some.inj hs
  have hlt : bumps newer < 2 ^ 64 := by
    rw [bumps_append] at hbumps
    omega
  -- fewer than 2^64 invalidations do not come round to the same number
  have hgen : s.generation = (m.beginTurn wireFormat).1.generation ↔ Undisturbed newer := by
    rw [generation_path q, ← bumps_eq_zero, ← ofNat_eq_zero hlt]
    exact add_eq_left
  refine ⟨?_, ?_, ?_, ?_⟩
  · intro turnItems
    rw [RoomState.appendTurnIfGeneration_accepted, hgen]
  · intro rollback
    rw [RoomState.restoreFailedTurn_accepted, hgen]
  · intro hu
    obtain ⟨hw, hh⟩ := undisturbed_path q hu
    rw [RoomState.wireFormat_beginTurn] at hw
    refine ⟨hw, hh, ?_⟩
    intro turnItems
    rw [RoomState.appendTurnIfGeneration, if_neg (not_not.mpr (hgen.mpr hu)),
      RoomState.appendTurn_same hw]
  · intro hu
    have hne := mt hgen.mp hu
    constructor
    · intro turnItems
      rw [RoomState.appendTurnIfGeneration_rejected hne]
    · intro rollback
      rw [RoomState.restoreFailedTurn_rejected hne]

/-- A room with two turns in flight. -/
def twoInFlight : RoomState := (((RoomState.new {}).beginTurn .gemini).1.beginTurn .gemini).1

/-- The commit of the first turn leaves the second one's generation valid, and its commit is accepted too. -/
theorem turn_decided_two_in_flight :
    TurnDecided [(twoInFlight, .appendTurnIfGeneration 1 .gemini [.null])]
        (twoInFlight.appendTurnIfGeneration 1 .gemini [.null]).1 1 .gemini .empty ∧
      ((twoInFlight.appendTurnIfGeneration 1 .gemini [.null]).1.appendTurnIfGeneration 1 .gemini
        [.bool true]).2 = true := by
  have p : Path roomSys (.new {})
      ([(twoInFlight, .appendTurnIfGeneration 1 .gemini [.null])] ++
        (((RoomState.new {}).beginTurn .gemini).1, .beginTurn .gemini) :: [(.new {}, .beginTurn .gemini)])
      (twoInFlight.appendTurnIfGeneration 1 .gemini [.null]).1 :=
    .step (.step (.step .start rfl) rfl) rfl
  exact ⟨turn_decided p (by decide), by decide⟩

/-! ## All rooms -/

/-- What happens to the rooms. -/
inductive StatesOp
  | getOrDefault (chatId : Int)
  | remove (chatId : Int)
  | resetAllHistory
  /-- `get_mut`, and an operation on the room if there is one. -/
  | room (chatId : Int) (op : RoomOp)

/-- The rooms after an operation. -/
def RoomStates.apply (self : RoomStates) : StatesOp → RoomStates
  | .getOrDefault chatId => self.getOrDefault chatId
  | .remove chatId => self.remove chatId
  | .resetAllHistory => self.resetAllHistory
  | .room chatId op => self.updateRoom chatId fun room => room.apply op

/-- The rooms as a system. -/
def statesSys : Sys RoomStates StatesOp where
  step self op := some (self.apply op)

/-- The operations so far, newest first, each with the rooms it met. -/
abbrev StatesHistory := List (RoomStates × StatesOp)

/-- The operation invalidates the work in flight in the chat's room. -/
def RoomStates.InvalidatesRoom (self : RoomStates) (chatId : Int) : StatesOp → Bool
  | .resetAllHistory => (self.get chatId).isSome
  | .room d op => d == chatId && (self.get chatId).any fun room => room.Invalidates op
  | _ => false

/-- How many operations of the history invalidated the chat's room since its last removal. -/
def roomBumps (chatId : Int) : StatesHistory → Nat
  | [] => 0
  | (self, op) :: h =>
    match op with
    | .remove d => if d = chatId then 0 else roomBumps chatId h
    | op => roomBumps chatId h + (self.InvalidatesRoom chatId op).toNat

/-- The chat's room, if there is one, is at the generation that its history since its last removal
    counts up to; and without a room there is nothing to count. -/
def RoomCounts (s : RoomStates) (chatId : Int) (count : Nat) : Prop :=
  (∀ room, s.get chatId = some room → room.generation = UInt64.ofNat count) ∧
  (s.get chatId = none → count = 0)

/-- One operation keeps the count. -/
theorem RoomCounts.step {s : RoomStates} {chatId : Int} {h : StatesHistory}
    (hc : RoomCounts s chatId (roomBumps chatId h)) (op : StatesOp) :
    RoomCounts (s.apply op) chatId (roomBumps chatId ((s, op) :: h)) := by
  obtain ⟨hsome, hnone⟩ := hc
  -- the operations that make a room, remove it, reset all of them, or act in one
  cases op with
  | getOrDefault d =>
    have hbumps : roomBumps chatId ((s, .getOrDefault d) :: h) = roomBumps chatId h := rfl
    rw [hbumps, RoomStates.apply, RoomCounts, RoomStates.get_getOrDefault]
    split
    · rename_i hd
      subst hd
      refine ⟨?_, fun hno => (by cases hno)⟩
      intro room hroom
      cases hg : s.get d with
      | none =>
        rw [hg] at hroom
        cases hroom
        rw [hnone hg]
        rfl
      | some room' =>
        rw [hg] at hroom
        cases hroom
        exact hsome _ hg
    · exact ⟨hsome, hnone⟩
  | remove d =>
    rw [RoomStates.apply, RoomCounts, RoomStates.get_remove, roomBumps]
    split
    · exact ⟨fun room hroom => (by cases hroom), fun _ => rfl⟩
    · exact ⟨hsome, hnone⟩
  | resetAllHistory =>
    rw [RoomStates.apply, RoomCounts, RoomStates.get_resetAllHistory]
    simp only [roomBumps, RoomStates.InvalidatesRoom]
    cases hg : s.get chatId with
    | none =>
      exact ⟨fun room hroom => (by cases hroom), fun _ => by rw [hnone hg]; rfl⟩
    | some room =>
      refine ⟨?_, fun hno => (by cases hno)⟩
      rintro _ ⟨⟩
      rw [Option.isSome_some, Bool.toNat_true, ofNat_succ, ← hsome room hg]
      rfl
  | room d op =>
    rw [RoomStates.apply, RoomCounts, RoomStates.get_updateRoom]
    simp only [roomBumps, RoomStates.InvalidatesRoom]
    by_cases hd : d = chatId
    · subst hd
      cases hg : s.get d with
      | none =>
        rw [if_pos rfl]
        refine ⟨fun room hroom => (by cases hroom), ?_⟩
        intro _
        rw [hnone hg, Option.any_none, Bool.and_false]
        rfl
      | some room =>
        rw [if_pos rfl]
        refine ⟨?_, fun hno => (by cases hno)⟩
        rintro _ ⟨⟩
        rw [RoomState.generation_apply, hsome room hg, BEq.rfl, Bool.true_and, Option.any_some]
        by_cases hi : room.Invalidates op
        · rw [if_pos hi, decide_eq_true hi, Bool.toNat_true, ofNat_succ]
        · rw [if_neg hi, decide_eq_false hi, Bool.toNat_false, UInt64.add_zero, Nat.add_zero]
    · simp only [hd, if_false, beq_eq_false_iff_ne.mpr hd, Bool.false_and]
      exact ⟨hsome, hnone⟩

/-- Every generation of every run is a count. -/
theorem roomCounts_path {settings : BTreeMap Int RoomSettings} {s : RoomStates} {h : StatesHistory}
    (p : Path statesSys (.fromSettings settings) h s) (chatId : Int) :
    RoomCounts s chatId (roomBumps chatId h) := by
  induction p with
  | start =>
    refine ⟨?_, fun _ => rfl⟩
    intro room hroom
    rw [RoomStates.get_fromSettings] at hroom
    obtain ⟨_, -, rfl⟩ := Option.map_eq_some_iff.mp hroom
    rfl
  | step p hs ih =>
    cases hs
    exact ih.step _

/-- What happened before a removal is not counted. -/
theorem roomBumps_remove (chatId : Int) (s : RoomStates) (older : StatesHistory) :
    ∀ newer : StatesHistory,
      roomBumps chatId (newer ++ (s, .remove chatId) :: older) = roomBumps chatId newer
  | [] => if_pos rfl
  | (s', op) :: newer => by
    have ih := roomBumps_remove chatId s older newer
    cases op <;> simp only [List.cons_append, roomBumps, ih]

/-- The room operation is accepted in the chat's room: there is a room, and it returns `true`. -/
def RoomStates.acceptsCommit (self : RoomStates) (chatId : Int) (expectedGeneration : UInt64)
    (wireFormat : WireFormat) (turnItems : List Value) : Bool :=
  (self.get chatId).any fun room =>
    (room.appendTurnIfGeneration expectedGeneration wireFormat turnItems).2

/-- The chat has a room, and that one accepts the rollback. -/
def RoomStates.acceptsRollback (self : RoomStates) (chatId : Int) (expectedGeneration : UInt64)
    (rollback : Option FailedTurnRollback) : Bool :=
  (self.get chatId).any fun room => (room.restoreFailedTurn expectedGeneration rollback).2

/-- What the design promises of a generation token `g` of the chat's room, when the room has been
    removed since: no later call with it is accepted. -/
def StaleRefused (s : RoomStates) (chatId : Int) (g : UInt64) : Prop :=
  (∀ wireFormat turnItems, s.acceptsCommit chatId g wireFormat turnItems = false) ∧
  (∀ rollback, s.acceptsRollback chatId g rollback = false)

/-- A refused call leaves every room as it was, and in particular adds nothing to a history. -/
theorem StaleRefused.unchanged {s : RoomStates} {chatId : Int} {g : UInt64}
    (h : StaleRefused s chatId g) (wireFormat : WireFormat) (turnItems : List Value)
    (rollback : Option FailedTurnRollback) :
    s.apply (.room chatId (.appendTurnIfGeneration g wireFormat turnItems)) = s ∧
    s.apply (.room chatId (.restoreFailedTurn g rollback)) = s := by
  have hne : ∀ room, s.get chatId = some room → room.generation ≠ g := by
    intro room hroom hg
    have hacc := h.2 none
    rw [RoomStates.acceptsRollback, hroom, Option.any_some,
      RoomState.restoreFailedTurn_accepted.mpr hg] at hacc
    cases hacc
  have hsame : ∀ f : RoomState → RoomState,
      (∀ room, s.get chatId = some room → f room = room) → s.updateRoom chatId f = s := by
    intro f hf
    refine RoomStates.ext_get fun d => ?_
    rw [RoomStates.get_updateRoom]
    split
    · rename_i hd
      subst hd
      cases hroom : s.get chatId with
      | none => rfl
      | some room => rw [Option.map_some, hf room hroom]
    · rfl
  refine ⟨hsame _ fun room hroom => ?_, hsame _ fun room hroom => ?_⟩
  · rw [RoomState.apply, RoomState.appendTurnIfGeneration_rejected (hne room hroom)]
  · rw [RoomState.apply, RoomState.restoreFailedTurn_rejected (hne room hroom)]

/-- **When a removed room's tokens are refused.**  A token is read from the chat's room after the run
    `older`; the room is removed after `between`, and `newer` happens from then on.  Every later call
    with the token is refused exactly when the chat has no room, or its new room has been invalidated a
    different number of times (modulo 2^64) than the removed one had been when the token was read. -/
theorem staleCall_refused_iff {settings : BTreeMap Int RoomSettings} {m m' s : RoomStates}
    {older between newer : StatesHistory} {chatId : Int} {room : RoomState}
    (p : Path statesSys (.fromSettings settings) older m) (hroom : m.get chatId = some room)
    (q : Path statesSys m between m') (r : Path statesSys (m'.apply (.remove chatId)) newer s) :
    StaleRefused s chatId room.generation ↔
      (s.get chatId).isSome = true →
        roomBumps chatId newer % 2 ^ 64 ≠ roomBumps chatId older % 2 ^ 64 := by
  have hrun : Path statesSys (.fromSettings settings)
      (newer ++ (m', .remove chatId) :: (between ++ older)) s := (Path.step (p.append q) rfl).append r
  have hcount := roomCounts_path hrun chatId
  rw [roomBumps_remove] at hcount
  have htoken := (roomCounts_path p chatId).1 room hroom
  cases hs : s.get chatId with
  | none => simp [StaleRefused, RoomStates.acceptsCommit, RoomStates.acceptsRollback, hs]
  | some room' =>
    -- both generations count invalidations, modulo 2^64
    have hsame : room'.generation = room.generation ↔
        roomBumps chatId newer % 2 ^ 64 = roomBumps chatId older % 2 ^ 64 := by
      rw [hcount.1 room' hs, htoken, ofNat_eq_iff_mod]
    simp only [Option.isSome_some, forall_const, ne_eq, ← hsame]
    constructor
    · intro h hg
      have hacc := h.2 none
      rw [RoomStates.acceptsRollback, hs, Option.any_some,
        RoomState.restoreFailedTurn_accepted.mpr hg] at hacc
      cases hacc
    · intro hne
      constructor
      · intro wireFormat turnItems
        rw [RoomStates.acceptsCommit, hs, Option.any_some,
          RoomState.appendTurnIfGeneration_rejected hne]
      · intro rollback
        rw [RoomStates.acceptsRollback, hs, Option.any_some,
          RoomState.restoreFailedTurn_rejected hne]

/-- A recreated room in which nothing has begun refuses the removed room's token. -/
theorem staleCall_refused_before_begin :
    StaleRefused
      ((((RoomStates.fromSettings ∅).getOrDefault 1).apply (.room 1 (.beginTurn .responses))).apply
        (.remove 1) |>.getOrDefault 1) 1 1 :=
  have p : Path statesSys (.fromSettings ∅)
      [((RoomStates.fromSettings ∅).getOrDefault 1, .room 1 (.beginTurn .responses)),
        (.fromSettings ∅, .getOrDefault 1)]
      (((RoomStates.fromSettings ∅).getOrDefault 1).apply (.room 1 (.beginTurn .responses))) :=
    .step (.step .start rfl) rfl
  have hroom : (((RoomStates.fromSettings ∅).getOrDefault 1).apply
      (.room 1 (.beginTurn .responses))).get 1 = some ((RoomState.new {}).beginTurn .responses).1 := rfl
  (staleCall_refused_iff p hroom .start
    (.step .start (rfl : statesSys.step _ (.getOrDefault 1) = _))).mpr (by decide)

/-- **A stale commit is accepted.**  A turn begins in a fresh room and reads generation 1; the room is
    removed; the chat comes back and begins a turn, again at generation 1; the stale result is then
    accepted and becomes the new room's history. -/
theorem staleCall_accepted :
    ((statesSys.run (.fromSettings ∅) [.getOrDefault 1, .room 1 (.beginTurn .responses)]).bind
      (·.get 1)).map (·.generation) = some 1 ∧
    (statesSys.run (.fromSettings ∅) [.getOrDefault 1, .room 1 (.beginTurn .responses), .remove 1,
      .getOrDefault 1, .room 1 (.beginTurn .responses)]).map
      (·.acceptsCommit 1 1 .responses [.string "stale"]) = some true ∧
    ((statesSys.run (.fromSettings ∅) [.getOrDefault 1, .room 1 (.beginTurn .responses), .remove 1,
      .getOrDefault 1, .room 1 (.beginTurn .responses),
      .room 1 (.appendTurnIfGeneration 1 .responses [.string "stale"])]).bind (·.get 1)).map
      (·.history.items) = some [.string "stale"] :=
  ⟨by decide, by decide, rfl⟩

end Tellm
