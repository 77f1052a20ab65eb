/-
  The LIVE ACCESS CONTROL: `access.rs`.

  `AccessControl` is the set of chats that may use the bot right now, the set of owners, and four
  per-chat records behind the pairing gate: the armed code, the failed attempts, the one-time hint, and
  (shared by all chats) the generator of fresh codes.  The generator is arbitrary, so it is modelled by
  the stream of strings its calls will return; the clock is arbitrary, so every time is an argument.

  1. **Functions**: one definition per method, in source order; a `&mut self` method returns the state
     after it together with its result.
  2. **Specifications**: `attemptPair_cases` says once what a pairing attempt can do; everything proved
     about runs of the gate starts from it.
  3. **`accessSys`**: the methods as the steps of a transition system.

  A pairing code is a `PairingCode`: a string that carries the proof that it is six ASCII digits, since
  `normalize_pairing_code` makes one out of ANY generator output.

  A few things of the source have another shape here.  The maps and sets are Lean's ordered ones, since
  nothing depends on the iteration order of a hash map.  A time is an `AccessTime`, Unix seconds with the
  proof that they fit a `u64`, and is added to as the source does it, saturating.  Successive calls may be
  given times that run backwards; where a bound needs a clock that does not, `ClockMonotone` says so of
  the run and not of the gate.

  The comparison of two codes is the source's constant-time loop over bytes (`constantTimeEq`), proved to
  be equality; so nothing later looks at bytes again.  What a code is worth, who may pair with it and how
  often it may be tried are questions about runs, and are answered in `Tellm.Pairing` and
  `Tellm.BruteForce`; how the live sets follow the config is the subject of `Tellm.Handlers`,
  `Tellm.Restart` and `Tellm.AccessRace`.
-/
import Tellm.Config
import Tellm.Lib.Runs

namespace Tellm

/-- `u64::MAX`. -/
def u64Max : Nat := 18446744073709551615

/-- `PAIRING_CODE_TTL`, in seconds as all of these. -/
def pairingCodeTtl : Nat := 10 * 60
/-- `LOCKOUT_WINDOW`: failures count together when they are this close to the first. -/
def lockoutWindow : Nat := 5 * 60
/-- `LOCKOUT_DURATION`. -/
def lockoutDuration : Nat := 5 * 60
/-- `MAX_PAIRING_ATTEMPTS`: the failure of a window that locks the chat out. -/
def maxPairingAttempts : Nat := 5
/-- `PRIVILEGED_COMMAND_STALE_AFTER`. -/
def privilegedCommandStaleAfter : Nat := 60

/-- Unix seconds, as a `u64`. -/
structure AccessTime where
  seconds : Nat
  le_max : seconds ≤ u64Max
  deriving DecidableEq

/-- `u64::saturating_add`, of the seconds. -/
def AccessTime.saturatingAdd (time : AccessTime) (duration : Nat) : AccessTime :=
  ⟨min (time.seconds + duration) u64Max, Nat.min_le_right _ _⟩

/-- The access part of a config. -/
structure AccessConfig where
  allowedChatIds : BTreeSet Int
  ownerUserIds : BTreeSet Int
  pinnedChatIds : BTreeSet Int

/-- What of the config decides who has access. -/
def AccessConfig.fromConfig (config : Config) : AccessConfig where
  allowedChatIds := .ofList config.telegram.allowedChatIds
  ownerUserIds := .ofList config.telegram.ownerUserIds
  pinnedChatIds := .ofList (config.models.toList.flatMap fun e => e.2.telegramChatIds)

/-- The allowlist, with the chats that a model is pinned to. -/
def AccessConfig.effectiveAllowed (config : AccessConfig) : BTreeSet Int :=
  config.allowedChatIds ∪ config.pinnedChatIds

/-- `ChatAccess`: an unknown chat is hinted at once. -/
inductive ChatAccess
  | allowed
  | unknown (sendHint : Bool)
  deriving DecidableEq

/-- `PairingAttempt`: what an attempt to pair comes to. -/
inductive PairingAttempt
  | paired
  | alreadyAllowed
  | rejected (attemptsRemaining : Nat)
  | lockedOut (until_ : AccessTime)
  deriving DecidableEq

/-- `PrivilegedAccess`: an owner's message may still be too old. -/
inductive PrivilegedAccess
  | allowed
  | notOwner
  | stale
  deriving DecidableEq

/-! ## Pairing codes -/

/-- Exactly six ASCII digits. -/
def SixDigits (code : String) : Prop :=
  code.toList.length = 6 ∧ ∀ c ∈ code.toList, c.isDigit = true

/-- A pairing code, with the proof that it is one. -/
structure PairingCode where
  code : String
  sixDigits : SixDigits code
  deriving DecidableEq

/-- `str::parse::<u32>` on a string of ASCII digits. -/
def parseU32 : List Char → Option Nat
  | [] => none
  | digits =>
    let value := digits.foldl (fun n c => n * 10 + (c.toNat - '0'.toNat)) 0
    if value ≤ 4294967295 then some value else none

/-- `format!("{:06}", value)`. -/
def zeroPadded (value : Nat) : List Char := List.leftpad 6 '0' (Nat.toDigits 10 value)

theorem sixDigits_zeroPadded {value : Nat} (h : value < 1000000) :
    SixDigits (String.ofList (zeroPadded value)) := by
  have hlen : (Nat.toDigits 10 value).length ≤ 6 :=
    (Nat.length_toDigits_le_iff (by norm_num) (by norm_num)).mpr h
  constructor
  · rw [String.toList_ofList, zeroPadded, List.length_leftpad]
    omega
  · intro c hc
    rw [String.toList_ofList, zeroPadded, List.leftpad, List.mem_append] at hc
    rcases hc with hc | hc
    · rw [List.eq_of_mem_replicate hc]
      rfl
    · exact Nat.isDigit_of_mem_toDigits (b := 10) (by omega) (by omega) hc

/-- `normalize_pairing_code`: the first six digits of the generator's output, or however many there
    are, read as a number and padded. -/
def normalizePairingCode (code : String) : PairingCode :=
  let digits := (code.toList.filter Char.isDigit).take 6
  if h : digits.length = 6 then
    ⟨String.ofList digits, by
      refine ⟨by rw [String.toList_ofList, h], ?_⟩
      intro c hc
      rw [String.toList_ofList] at hc
      exact (List.mem_filter.mp (List.mem_of_mem_take hc)).2⟩
  else
    ⟨String.ofList (zeroPadded ((parseU32 digits).getD 0 % 1000000)),
      sixDigits_zeroPadded (Nat.mod_lt _ (by decide))⟩

/-- `str::as_bytes`. -/
def asBytes (text : String) : List UInt8 := text.toByteArray.data.toList

/-- `constant_time_eq`: the lengths and the bytes are xored into one accumulator, the shorter side
    padded with zeros. -/
def constantTimeEq (left right : List UInt8) : Bool :=
  (List.range (max left.length right.length)).foldl
    (fun diff index => diff ||| ((left[index]?.getD 0) ^^^ (right[index]?.getD 0)).toNat)
    (left.length ^^^ right.length) == 0

theorem asBytes_inj {left right : String} : asBytes left = asBytes right ↔ left = right := by
  constructor
  · intro h
    exact String.toByteArray_inj.mp (ByteArray.ext (Array.toList_inj.mp h))
  · rintro rfl
    rfl

/-- An accumulator of `or`s is zero exactly when everything that went into it is. -/
theorem foldl_or_eq_zero (f : Nat → Nat) : ∀ (l : List Nat) (diff : Nat),
    l.foldl (fun diff index => diff ||| f index) diff = 0 ↔ diff = 0 ∧ ∀ i ∈ l, f i = 0
  | [], diff => by simp
  | i :: l, diff => by
    rw [List.foldl_cons, foldl_or_eq_zero f l, Nat.or_eq_zero_iff, List.forall_mem_cons, and_assoc]

/-- `constant_time_eq` is equality. -/
theorem constantTimeEq_iff {left right : List UInt8} :
    constantTimeEq left right = true ↔ left = right := by
  have hbyte : ∀ a b : UInt8, (a ^^^ b).toNat = 0 ↔ a = b := by
    intro a b
    rw [UInt8.toNat_xor, Nat.xor_eq_zero_iff, UInt8.toNat_inj]
  rw [constantTimeEq, beq_iff_eq, foldl_or_eq_zero, Nat.xor_eq_zero_iff]
  constructor
  · rintro ⟨hlen, hall⟩
    refine List.ext_getElem hlen fun i hl hr => ?_
    have hi := (hbyte _ _).mp (hall i (List.mem_range.mpr (by omega)))
    rwa [List.getElem?_eq_getElem hl, List.getElem?_eq_getElem hr] at hi
  · rintro rfl
    exact ⟨rfl, fun i _ => (hbyte _ _).mpr rfl⟩

/-! ## The state -/

/-- The pairing code armed for one room. -/
structure PairingState where
  code : PairingCode
  expiresAt : AccessTime
  deriving DecidableEq

/-- `AttemptState`: the failures of one chat in its window, and the lockout if there is one. -/
structure AttemptState where
  windowStartedAt : AccessTime
  count : Nat
  lockedUntil : Option AccessTime
  deriving DecidableEq

/-- `RoomPairing`: the code that the terminal shows for a chat, and whether it is a new one. -/
structure RoomPairing where
  code : PairingCode
  newlyIssued : Bool
  deriving DecidableEq

/-- `AccessControl`: who has access now.  The config has what of it is kept. -/
structure AccessControl where
  allowedChatIds : BTreeSet Int
  ownerUserIds : BTreeSet Int
  pending : BTreeMap Int PairingState := ∅
  attempts : BTreeMap Int AttemptState := ∅
  hintedUnknownChats : BTreeSet Int := ∅
  /-- The outputs of the calls of `code_generator` to come. -/
  codeGenerator : Stream' String

namespace AccessControl

/-- `new_with_generator`. -/
def new (config : AccessConfig) (codeGenerator : Stream' String) : AccessControl where
  allowedChatIds := config.effectiveAllowed
  ownerUserIds := config.ownerUserIds
  codeGenerator := codeGenerator

/-- The branch of `ensure_room_code` that draws a code. -/
def issueRoomCode (self : AccessControl) (chatId : Int) (now : AccessTime) :
    AccessControl × PairingCode :=
  let code := normalizePairingCode self.codeGenerator.head
  ({ self with
      codeGenerator := self.codeGenerator.tail
      pending := self.pending.insert chatId ⟨code, now.saturatingAdd pairingCodeTtl⟩ }, code)

/-- `ensure_room_code`: the room's code, issued when missing and rotated when expired, and whether it
    is new. -/
def ensureRoomCode (self : AccessControl) (chatId : Int) (now : AccessTime) :
    AccessControl × PairingCode × Bool :=
  match self.pending[chatId]? with
  | some pairing =>
    if pairing.expiresAt.seconds ≤ now.seconds then
      let (self, code) := self.issueRoomCode chatId now
      (self, code, true)
    else (self, pairing.code, false)
  | none =>
    let (self, code) := self.issueRoomCode chatId now
    (self, code, true)

/-- `arm_room`: a chat without access gets a code, or keeps the one it has. -/
def armRoom (self : AccessControl) (chatId : Int) (now : AccessTime) :
    AccessControl × Option RoomPairing :=
  if chatId ∈ self.allowedChatIds then (self, none)
  else
    let (self, code, newlyIssued) := self.ensureRoomCode chatId now
    (self, some ⟨code, newlyIssued⟩)

/-- `check_chat`: whether the chat has access, and if not whether it is to be hinted, which it is once. -/
def checkChat (self : AccessControl) (chatId : Int) : AccessControl × ChatAccess :=
  if chatId ∈ self.allowedChatIds then (self, .allowed)
  else ({ self with hintedUnknownChats := self.hintedUnknownChats.insert chatId },
    .unknown (!self.hintedUnknownChats.contains chatId))

/-- `is_chat_allowed`. -/
def isChatAllowed (self : AccessControl) (chatId : Int) : Bool :=
  self.allowedChatIds.contains chatId

/-- `allow_chat`.  A code of the chat stays where it is. -/
def allowChat (self : AccessControl) (chatId : Int) : AccessControl :=
  { self with
    allowedChatIds := self.allowedChatIds.insert chatId
    hintedUnknownChats := self.hintedUnknownChats.erase chatId }

/-- `deny_chat`: with the access go the chat's code and its failures. -/
def denyChat (self : AccessControl) (chatId : Int) : AccessControl :=
  { self with
    allowedChatIds := self.allowedChatIds.erase chatId
    hintedUnknownChats := self.hintedUnknownChats.erase chatId
    attempts := self.attempts.erase chatId
    pending := self.pending.erase chatId }

/-- `add_owner`. -/
def addOwner (self : AccessControl) (userId : Int) : AccessControl :=
  { self with ownerUserIds := self.ownerUserIds.insert userId }

/-- `locked_until`: a lockout in force, or none; an expired one is forgotten. -/
def lockedUntil (self : AccessControl) (chatId : Int) (now : AccessTime) :
    AccessControl × Option AccessTime :=
  match self.attempts[chatId]? with
  | none => (self, none)
  | some attempt =>
    match attempt.lockedUntil with
    | some until_ =>
      if now.seconds < until_.seconds then (self, some until_)
      else ({ self with attempts := self.attempts.erase chatId }, none)
    | none => (self, none)

/-- The window a failed attempt at `now` counts in: the running one, or a fresh one. -/
def AttemptState.window (attempt : Option AttemptState) (now : AccessTime) : AttemptState :=
  let fresh : AttemptState := ⟨now, 0, none⟩
  let attempt := attempt.getD fresh
  if now.seconds - attempt.windowStartedAt.seconds ≥ lockoutWindow then fresh else attempt

/-- `record_failed_attempt`. -/
def recordFailedAttempt (self : AccessControl) (chatId : Int) (now : AccessTime) :
    AccessControl × PairingAttempt :=
  let window := AttemptState.window self.attempts[chatId]? now
  let attempt := { window with count := min (window.count + 1) 255 }
  if attempt.count ≥ maxPairingAttempts then
    let until_ := now.saturatingAdd lockoutDuration
    ({ self with attempts := self.attempts.insert chatId { attempt with lockedUntil := some until_ } },
      .lockedOut until_)
  else
    ({ self with attempts := self.attempts.insert chatId attempt },
      .rejected (maxPairingAttempts - attempt.count))

/-- `attempt_pair`: the two guards, then the code, which is rotated first when it has expired, and the
    comparison. -/
def attemptPair (self : AccessControl) (chatId : Int) (submittedCode : String) (now : AccessTime) :
    AccessControl × PairingAttempt :=
  if chatId ∈ self.allowedChatIds then (self, .alreadyAllowed)
  else
    match self.lockedUntil chatId now with
    | (self, some until_) => (self, .lockedOut until_)
    | (self, none) =>
      let (self, expected, _) := self.ensureRoomCode chatId now
      if constantTimeEq (asBytes expected.code) (asBytes submittedCode) then
        ({ self with
            allowedChatIds := self.allowedChatIds.insert chatId
            attempts := self.attempts.erase chatId
            hintedUnknownChats := self.hintedUnknownChats.erase chatId
            pending := self.pending.erase chatId }, .paired)
      else self.recordFailedAttempt chatId now

/-- `check_privileged`: a registered owner, and a message that is not stale.  A message from the future is not
    stale. -/
def checkPrivileged (self : AccessControl) (senderUserId : Option Int) (messageUnixSeconds : Nat)
    (now : AccessTime) : PrivilegedAccess :=
  if !senderUserId.any fun userId => self.ownerUserIds.contains userId then .notOwner
  else if now.seconds - messageUnixSeconds > privilegedCommandStaleAfter then .stale
  else .allowed

/-! ## What each method does -/

variable {self : AccessControl} {chatId : Int} {now : AccessTime}

theorem mem_effectiveAllowed (config : Config) (chatId : Int) :
    chatId ∈ (AccessConfig.fromConfig config).effectiveAllowed ↔ config.Allows chatId := by
  simp only [AccessConfig.effectiveAllowed, AccessConfig.fromConfig, Std.ExtTreeSet.mem_union_iff,
    Std.ExtTreeSet.mem_ofList, List.contains_iff_mem, List.mem_flatMap, Config.Allows, Config.Pinned]
  refine or_congr Iff.rfl ⟨?_, ?_⟩
  · rintro ⟨e, he, hd⟩
    exact ⟨e.1, e.2, Std.ExtTreeMap.mem_toList_iff_getElem?_eq_some.mp he, hd⟩
  · rintro ⟨key, model, hk, hd⟩
    exact ⟨(key, model), Std.ExtTreeMap.mem_toList_iff_getElem?_eq_some.mpr hk, hd⟩

theorem mem_ownerUserIds (config : Config) (userId : Int) :
    userId ∈ (AccessConfig.fromConfig config).ownerUserIds ↔
      userId ∈ config.telegram.ownerUserIds := by
  simp only [AccessConfig.fromConfig, Std.ExtTreeSet.mem_ofList, List.contains_iff_mem]

@[simp] theorem mem_allowChat {d : Int} :
    d ∈ (self.allowChat chatId).allowedChatIds ↔ chatId = d ∨ d ∈ self.allowedChatIds := by
  simp [allowChat, Std.ExtTreeSet.mem_insert]

@[simp] theorem mem_denyChat {d : Int} :
    d ∈ (self.denyChat chatId).allowedChatIds ↔ chatId ≠ d ∧ d ∈ self.allowedChatIds := by
  simp [denyChat, Std.ExtTreeSet.mem_erase]

@[simp] theorem mem_addOwner {userId u : Int} :
    u ∈ (self.addOwner userId).ownerUserIds ↔ userId = u ∨ u ∈ self.ownerUserIds := by
  simp [addOwner, Std.ExtTreeSet.mem_insert]

/-- `ensure_room_code` either returns the armed code, or draws one because none is armed or the
    armed one has expired. -/
theorem ensureRoomCode_cases (self : AccessControl) (chatId : Int) (now : AccessTime) :
    (∃ pairing, self.pending[chatId]? = some pairing ∧ now.seconds < pairing.expiresAt.seconds ∧
      self.ensureRoomCode chatId now = (self, pairing.code, false)) ∨
    (self.ensureRoomCode chatId now =
      ((self.issueRoomCode chatId now).1, (self.issueRoomCode chatId now).2, true)) := by
  unfold ensureRoomCode
  split
  · rename_i pairing hp
    split
    · exact Or.inr rfl
    · exact Or.inl ⟨pairing, hp, by omega, rfl⟩
  · exact Or.inr rfl

theorem ensureRoomCode_frame (self : AccessControl) (chatId : Int) (now : AccessTime) :
    (self.ensureRoomCode chatId now).1.allowedChatIds = self.allowedChatIds ∧
    (self.ensureRoomCode chatId now).1.ownerUserIds = self.ownerUserIds ∧
    (self.ensureRoomCode chatId now).1.attempts = self.attempts := by
  rcases ensureRoomCode_cases self chatId now with ⟨_, -, -, h⟩ | h <;> rw [h] <;> exact ⟨rfl, rfl, rfl⟩

/-- Arming a room is not access. -/
theorem armRoom_frame (self : AccessControl) (chatId : Int) (now : AccessTime) :
    (self.armRoom chatId now).1.allowedChatIds = self.allowedChatIds ∧
    (self.armRoom chatId now).1.ownerUserIds = self.ownerUserIds ∧
    (self.armRoom chatId now).1.attempts = self.attempts := by
  unfold armRoom
  split
  · exact ⟨rfl, rfl, rfl⟩
  · exact ensureRoomCode_frame self chatId now

/-- What `ensure_room_code` leaves armed, for every room: it touches its own room only, and only
    when it draws a code. -/
theorem pending_ensureRoomCode (self : AccessControl) (chatId d : Int) (now : AccessTime) :
    (self.ensureRoomCode chatId now).1.pending[d]? =
      if chatId = d ∧ (self.ensureRoomCode chatId now).2.2 = true then
        some ⟨(self.ensureRoomCode chatId now).2.1, now.saturatingAdd pairingCodeTtl⟩
      else self.pending[d]? := by
  rcases ensureRoomCode_cases self chatId now with ⟨_, -, -, h⟩ | h
  · simp [h]
  · simp [h, issueRoomCode, Std.ExtTreeMap.getElem?_insert]

theorem lockedUntil_cases (self : AccessControl) (chatId : Int) (now : AccessTime) :
    (∃ attempt until_, self.attempts[chatId]? = some attempt ∧ attempt.lockedUntil = some until_ ∧
      now.seconds < until_.seconds ∧ self.lockedUntil chatId now = (self, some until_)) ∨
    (∃ attempt until_, self.attempts[chatId]? = some attempt ∧ attempt.lockedUntil = some until_ ∧
      until_.seconds ≤ now.seconds ∧
      self.lockedUntil chatId now = ({ self with attempts := self.attempts.erase chatId }, none)) ∨
    ((∀ attempt, self.attempts[chatId]? = some attempt → attempt.lockedUntil = none) ∧
      self.lockedUntil chatId now = (self, none)) := by
  unfold lockedUntil
  split
  · rename_i hn
    exact Or.inr (Or.inr ⟨fun a ha => (by cases hn.symm.trans ha), rfl⟩)
  · rename_i attempt ha
    split
    · rename_i until_ hu
      split
      · exact Or.inl ⟨attempt, until_, ha, hu, by assumption, rfl⟩
      · exact Or.inr (Or.inl ⟨attempt, until_, ha, hu, by omega, rfl⟩)
    · rename_i hu
      refine Or.inr (Or.inr ⟨fun a ha' => ?_, rfl⟩)
      obtain rfl := Option.some.inj (ha.symm.trans ha')
      exact hu

/-- The gate forgets an expired lockout and changes nothing else. -/
theorem lockedUntil_frame (self : AccessControl) (chatId : Int) (now : AccessTime) :
    (self.lockedUntil chatId now).1.allowedChatIds = self.allowedChatIds ∧
    (self.lockedUntil chatId now).1.ownerUserIds = self.ownerUserIds ∧
    (self.lockedUntil chatId now).1.pending = self.pending := by
  rcases lockedUntil_cases self chatId now with ⟨_, _, -, -, -, h⟩ | ⟨_, _, -, -, -, h⟩ | ⟨-, h⟩ <;>
    rw [h] <;> exact ⟨rfl, rfl, rfl⟩

/-- A lockout in force leaves the state alone. -/
theorem lockedUntil_some {until_ : AccessTime} (h : (self.lockedUntil chatId now).2 = some until_) :
    (self.lockedUntil chatId now).1 = self := by
  rcases lockedUntil_cases self chatId now with ⟨_, _, -, -, -, hl⟩ | ⟨_, _, -, -, -, hl⟩ | ⟨-, hl⟩
  · rw [hl]
  · rw [hl] at h
    cases h
  · rw [hl]

theorem recordFailedAttempt_frame (self : AccessControl) (chatId : Int) (now : AccessTime) :
    (self.recordFailedAttempt chatId now).1.allowedChatIds = self.allowedChatIds ∧
    (self.recordFailedAttempt chatId now).1.ownerUserIds = self.ownerUserIds ∧
    (self.recordFailedAttempt chatId now).1.pending = self.pending ∧
    (self.recordFailedAttempt chatId now).2 ≠ .paired ∧
    (self.recordFailedAttempt chatId now).2 ≠ .alreadyAllowed := by
  unfold recordFailedAttempt
  dsimp only
  split
  · refine ⟨rfl, rfl, rfl, ?_, ?_⟩ <;> intro h <;> cases h
  · refine ⟨rfl, rfl, rfl, ?_, ?_⟩ <;> intro h <;> cases h

/-- The state in which a pairing attempt compares the codes: past the lockout gate, with the room's
    code ensured. -/
def compareState (self : AccessControl) (chatId : Int) (now : AccessTime) :
    AccessControl × PairingCode × Bool :=
  (self.lockedUntil chatId now).1.ensureRoomCode chatId now

/-- The state after a pairing attempt that matched. -/
def pairedState (self : AccessControl) (chatId : Int) : AccessControl :=
  { self with
    allowedChatIds := self.allowedChatIds.insert chatId
    attempts := self.attempts.erase chatId
    hintedUnknownChats := self.hintedUnknownChats.erase chatId
    pending := self.pending.erase chatId }

/-- A pairing attempt reaches the code comparison: the chat is not allowed and not locked out. -/
def Compares (self : AccessControl) (chatId : Int) (now : AccessTime) : Prop :=
  chatId ∉ self.allowedChatIds ∧ (self.lockedUntil chatId now).2 = none

instance : Decidable (self.Compares chatId now) := inferInstanceAs (Decidable (_ ∧ _))

/-- Everything a pairing attempt can do. -/
theorem attemptPair_cases (self : AccessControl) (chatId : Int) (submittedCode : String)
    (now : AccessTime) :
    (chatId ∈ self.allowedChatIds ∧
      self.attemptPair chatId submittedCode now = (self, .alreadyAllowed)) ∨
    (chatId ∉ self.allowedChatIds ∧ ∃ until_, (self.lockedUntil chatId now).2 = some until_ ∧
      self.attemptPair chatId submittedCode now = (self, .lockedOut until_)) ∨
    (self.Compares chatId now ∧ (self.compareState chatId now).2.1.code = submittedCode ∧
      self.attemptPair chatId submittedCode now =
        ((self.compareState chatId now).1.pairedState chatId, .paired)) ∨
    (self.Compares chatId now ∧ (self.compareState chatId now).2.1.code ≠ submittedCode ∧
      self.attemptPair chatId submittedCode now =
        (self.compareState chatId now).1.recordFailedAttempt chatId now) := by
  by_cases hc : chatId ∈ self.allowedChatIds
  · exact Or.inl ⟨hc, by rw [attemptPair, if_pos hc]⟩
  · refine Or.inr ?_
    cases hl : (self.lockedUntil chatId now).2 with
    | some until_ =>
      refine Or.inl ⟨hc, until_, rfl, ?_⟩
      have hpair : self.lockedUntil chatId now = (self, some until_) :=
        Prod.ext (lockedUntil_some hl) hl
      rw [attemptPair, if_neg hc, hpair]
    | none =>
      have hpair : self.lockedUntil chatId now = ((self.lockedUntil chatId now).1, none) :=
        Prod.ext rfl hl
      -- the constant-time comparison is one of the codes
      have heq : constantTimeEq (asBytes (self.compareState chatId now).2.1.code)
          (asBytes submittedCode) = true ↔
          (self.compareState chatId now).2.1.code = submittedCode :=
        constantTimeEq_iff.trans asBytes_inj
      by_cases hm : (self.compareState chatId now).2.1.code = submittedCode
      · refine Or.inr (Or.inl ⟨⟨hc, hl⟩, hm, ?_⟩)
        rw [attemptPair, if_neg hc, hpair]
        exact if_pos (heq.mpr hm)
      · refine Or.inr (Or.inr ⟨⟨hc, hl⟩, hm, ?_⟩)
        rw [attemptPair, if_neg hc, hpair]
        exact if_neg fun h => hm (heq.mp h)

theorem compareState_frame (self : AccessControl) (chatId : Int) (now : AccessTime) :
    (self.compareState chatId now).1.allowedChatIds = self.allowedChatIds ∧
    (self.compareState chatId now).1.ownerUserIds = self.ownerUserIds ∧
    (self.compareState chatId now).1.attempts = (self.lockedUntil chatId now).1.attempts := by
  obtain ⟨ha, ho, ht⟩ := ensureRoomCode_frame (self.lockedUntil chatId now).1 chatId now
  obtain ⟨ha', ho', -⟩ := lockedUntil_frame self chatId now
  exact ⟨ha.trans ha', ho.trans ho', ht⟩

/-- Only a match pairs, it pairs an unallowed chat, and it changes the live sets by that chat only. -/
theorem attemptPair_live (self : AccessControl) (chatId : Int) (submittedCode : String)
    (now : AccessTime) :
    (self.attemptPair chatId submittedCode now).1.ownerUserIds = self.ownerUserIds ∧
    (∀ d, d ∈ (self.attemptPair chatId submittedCode now).1.allowedChatIds ↔
      (chatId = d ∧ (self.attemptPair chatId submittedCode now).2 = .paired) ∨
        d ∈ self.allowedChatIds) ∧
    ((self.attemptPair chatId submittedCode now).2 = .paired → chatId ∉ self.allowedChatIds) := by
  obtain ⟨ha, ho, -⟩ := compareState_frame self chatId now
  -- allowed already, locked out, a match, a miss
  rcases attemptPair_cases self chatId submittedCode now with
    ⟨-, h⟩ | ⟨-, _, -, h⟩ | ⟨hc, -, h⟩ | ⟨hc, -, h⟩
  · rw [h]
    refine ⟨rfl, fun d => ⟨Or.inr, fun hd => hd.resolve_left ?_⟩, ?_⟩
    · intro h'
      cases h'.2
    · intro h'
      cases h'
  · rw [h]
    refine ⟨rfl, fun d => ⟨Or.inr, fun hd => hd.resolve_left ?_⟩, ?_⟩
    · intro h'
      cases h'.2
    · intro h'
      cases h'
  · rw [h]
    refine ⟨ho, ?_, fun _ => hc.1⟩
    intro d
    simp [pairedState, Std.ExtTreeSet.mem_insert, ha]
  · obtain ⟨ha', ho', -, hp, -⟩ :=
      recordFailedAttempt_frame (self.compareState chatId now).1 chatId now
    rw [h, ha', ho', ha, ho]
    exact ⟨rfl, fun d => ⟨Or.inr, fun hd => hd.resolve_left fun h' => hp h'.2⟩, fun h' => absurd h' hp⟩

end AccessControl

/-! ## The methods as a transition system -/

/-- A call of one of the methods that change the state. -/
inductive AccessOp
  | armRoom (chatId : Int) (now : AccessTime)
  | checkChat (chatId : Int)
  | allowChat (chatId : Int)
  | denyChat (chatId : Int)
  | addOwner (userId : Int)
  | attemptPair (chatId : Int) (submittedCode : String) (now : AccessTime)
  deriving DecidableEq

/-- The clock reading of the call, if it takes one. -/
def AccessOp.time : AccessOp → Option AccessTime
  | .armRoom _ now => some now
  | .attemptPair _ _ now => some now
  | _ => none

/-- The state after a call; what the call answers is left out. -/
def AccessControl.apply (self : AccessControl) : AccessOp → AccessControl
  | .armRoom chatId now => (self.armRoom chatId now).1
  | .checkChat chatId => (self.checkChat chatId).1
  | .allowChat chatId => self.allowChat chatId
  | .denyChat chatId => self.denyChat chatId
  | .addOwner userId => self.addOwner userId
  | .attemptPair chatId submittedCode now => (self.attemptPair chatId submittedCode now).1

/-- Every call is always enabled. -/
def accessSys : Runs.Sys AccessControl AccessOp where
  step self op := some (self.apply op)

/-- A history of calls. -/
abbrev AccessHistory := List (AccessControl × AccessOp)

/-- The clock never runs backwards along a history (newest call first). -/
def ClockMonotone (h : AccessHistory) : Prop :=
  (h.filterMap fun x => x.2.time).Pairwise fun later earlier => earlier.seconds ≤ later.seconds

end Tellm
