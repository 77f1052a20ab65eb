/-
  PAIRING IS AUTHENTIC: who gets in, and which code lets them in.

  The gate keeps no log, so the statement is about histories of calls (`accessSys`).  Two observations
  of a call are enough: the code it ISSUES to a chat (`issues`: arming the room or attempting to pair
  may draw one) and whether it ENDS the chat's code (`Ends`: a deny or a successful pairing).

  1. `pending_apply`: one call's effect on a chat's armed code, in terms of those two.
  2. `pending_mostRecent`: hence, after any run, an armed code is the one most recently issued to that
     chat, with its expiry counted from the issue, and nothing has ended it since.
  3. `allowed_granted`: after any run, an allowed chat was allowed initially or was granted access, and
     was not denied since.
  4. `pairing_authentic` puts the two together for an attempt that returns `Paired`.

  Nothing is added to the state for this: `issues` and `Ends` are functions of a call and of the state
  that it meets, so the history can be asked which code was the last one issued (`MostRecentCode`) with
  the past-time operator of `Tellm.Lib.Runs`.  A code that expires is not ended by a call; it is still
  pending, and the attempt that finds it expired draws a new one, which is an issue.

  The theorem speaks of any config, any generator and any order of calls, for any number of chats.  Who is
  allowed does not depend on the clock at all; which code a successful attempt has submitted, and that the
  code has not expired, is said for a clock that does not run backwards.
-/
import Tellm.Access

namespace Tellm

open Runs

namespace AccessControl

/-- The code that the call `op` issues to the chat, with the time of issue. -/
def issues (self : AccessControl) (op : AccessOp) (chatId : Int) :
    Option (PairingCode × AccessTime) :=
  match op with
  | .armRoom d now =>
    if d = chatId ∧ d ∉ self.allowedChatIds ∧ (self.ensureRoomCode d now).2.2 = true then
      some ((self.ensureRoomCode d now).2.1, now)
    else none
  | .attemptPair d _ now =>
    if d = chatId ∧ self.Compares d now ∧ (self.compareState d now).2.2 = true then
      some ((self.compareState d now).2.1, now)
    else none
  | _ => none

/-- The call `op` is an attempt of the chat that returns `Paired`. -/
def Pairs (self : AccessControl) (op : AccessOp) (chatId : Int) : Prop :=
  ∃ submittedCode now, op = .attemptPair chatId submittedCode now ∧
    (self.attemptPair chatId submittedCode now).2 = .paired

/-- The call `op` ends the chat's code: it denies the chat or pairs it. -/
def Ends (self : AccessControl) (op : AccessOp) (chatId : Int) : Prop :=
  op = .denyChat chatId ∨ self.Pairs op chatId

theorem not_ends {self : AccessControl} {op : AccessOp} {chatId : Int}
    (hdeny : op ≠ .denyChat chatId)
    (hattempt : ∀ submittedCode now, op ≠ .attemptPair chatId submittedCode now) :
    ¬ self.Ends op chatId := by
  rintro (h | ⟨submittedCode, now, h, -⟩)
  · exact hdeny h
  · exact hattempt submittedCode now h

/-- A code is issued at the time of the call that issues it. -/
theorem time_of_issues {self : AccessControl} {op : AccessOp} {chatId : Int} {code : PairingCode}
    {issuedAt : AccessTime} (h : self.issues op chatId = some (code, issuedAt)) :
    op.time = some issuedAt := by
  unfold issues at h
  split at h
  · obtain ⟨-, h⟩ := Option.ite_none_right_eq_some.mp h
    cases h
    rfl
  · obtain ⟨-, h⟩ := Option.ite_none_right_eq_some.mp h
    cases h
    rfl
  · cases h

/-- The armed code of a chat after an attempt that did not match is the one it was compared with. -/
theorem pending_compareState (self : AccessControl) (chatId d : Int) (now : AccessTime) :
    (self.compareState chatId now).1.pending[d]? =
      if chatId = d ∧ (self.compareState chatId now).2.2 = true then
        some ⟨(self.compareState chatId now).2.1, now.saturatingAdd pairingCodeTtl⟩
      else self.pending[d]? := by
  obtain ⟨-, -, hp⟩ := lockedUntil_frame self chatId now
  rw [compareState, pending_ensureRoomCode, hp]

/-- **One call and one armed code.**  After a call, a chat's armed code is one the call issued, or
    the one that was armed before a call that issued none; and the call did not end it. -/
theorem pending_apply {self : AccessControl} {op : AccessOp} {chatId : Int} {pairing : PairingState}
    (h : (self.apply op).pending[chatId]? = some pairing) :
    ¬ self.Ends op chatId ∧
    ((∃ issuedAt, self.issues op chatId = some (pairing.code, issuedAt) ∧
        pairing.expiresAt = issuedAt.saturatingAdd pairingCodeTtl) ∨
      (self.issues op chatId = none ∧ self.pending[chatId]? = some pairing)) := by
  -- only arming and an attempt that is neither locked nor allowed may draw a code
  cases op with
  | armRoom d now =>
    refine ⟨not_ends (by simp) (by simp), ?_⟩
    simp only [apply, armRoom, issues] at h ⊢
    split at h
    · rename_i hd
      exact Or.inr ⟨if_neg fun h' => h'.2.1 hd, h⟩
    · rename_i hd
      dsimp only at h
      rw [pending_ensureRoomCode] at h
      split at h
      · rename_i hnew
        cases h
        exact Or.inl ⟨now, if_pos ⟨hnew.1, hd, hnew.2⟩, rfl⟩
      · rename_i hnew
        exact Or.inr ⟨if_neg fun h' => hnew ⟨h'.1, h'.2.2⟩, h⟩
  | checkChat d =>
    refine ⟨not_ends (by simp) (by simp), Or.inr ⟨rfl, ?_⟩⟩
    simp only [apply, checkChat] at h
    split at h <;> exact h
  | allowChat d =>
    exact ⟨not_ends (by simp) (by simp), Or.inr ⟨rfl, h⟩⟩
  | addOwner u =>
    exact ⟨not_ends (by simp) (by simp), Or.inr ⟨rfl, h⟩⟩
  | denyChat d =>
    simp only [apply, denyChat, Std.ExtTreeMap.getElem?_erase, compare_eq_iff_eq] at h
    split at h
    · cases h
    · rename_i hne
      exact ⟨not_ends (fun h' => hne (AccessOp.denyChat.inj h')) (by simp), Or.inr ⟨rfl, h⟩⟩
  | attemptPair d submittedCode now =>
    have hends : self.Ends (.attemptPair d submittedCode now) chatId →
        d = chatId ∧ (self.attemptPair d submittedCode now).2 = .paired := by
      rintro (h' | ⟨_, _, h', hp⟩)
      · cases h'
      · cases h'
        exact ⟨rfl, hp⟩
    rcases attemptPair_cases self d submittedCode now with
      ⟨ha, hr⟩ | ⟨-, _, hl, hr⟩ | ⟨hc, -, hr⟩ | ⟨hc, -, hr⟩
    · -- already allowed: nothing happens
      rw [hr] at hends
      rw [apply, hr] at h
      exact ⟨fun h' => (by cases (hends h').2), Or.inr ⟨if_neg fun h' => h'.2.1.1 ha, h⟩⟩
    · -- locked out: nothing happens
      rw [hr] at hends
      rw [apply, hr] at h
      refine ⟨fun h' => (by cases (hends h').2), Or.inr ⟨if_neg fun h' => ?_, h⟩⟩
      rw [h'.2.1.2] at hl
      cases hl
    · -- a match disarms the chat it pairs
      rw [apply, hr] at h
      simp only [pairedState, Std.ExtTreeMap.getElem?_erase, compare_eq_iff_eq] at h
      split at h
      · cases h
      · rename_i hne
        rw [pending_compareState, if_neg fun h' => hne h'.1] at h
        exact ⟨fun h' => hne (hends h').1, Or.inr ⟨if_neg fun h' => hne h'.1, h⟩⟩
    · -- a mismatch leaves the code it was compared with
      obtain ⟨-, -, hp, hnot, -⟩ := recordFailedAttempt_frame (self.compareState d now).1 d now
      rw [hr] at hends
      rw [apply, hr, hp, pending_compareState] at h
      refine ⟨fun h' => hnot (hends h').2, ?_⟩
      split at h
      · rename_i hnew
        cases h
        exact Or.inl ⟨now, if_pos ⟨hnew.1, hc, hnew.2⟩, rfl⟩
      · rename_i hnew
        exact Or.inr ⟨if_neg fun h' => hnew ⟨h'.1, h'.2.2⟩, h⟩

end AccessControl

/-! ## Over a whole run -/

/-- In the history `h`, `code` is the code most recently issued to the chat, it was issued at
    `issuedAt`, and the chat has been neither denied nor paired since. -/
def MostRecentCode (chatId : Int) (code : PairingCode) (issuedAt : AccessTime) :
    AccessHistory → Prop :=
  Since (fun y => y.1.issues y.2 chatId = none ∧ ¬ y.1.Ends y.2 chatId)
    (fun x => x.1.issues x.2 chatId = some (code, issuedAt) ∧ ¬ x.1.Ends x.2 chatId)

/-- In the history `h`, the chat was granted access, by an `allow_chat` or a pairing, and has not been
    denied since. -/
def Granted (chatId : Int) : AccessHistory → Prop :=
  Since (fun y => y.2 ≠ .denyChat chatId)
    (fun x => x.2 = .allowChat chatId ∨ x.1.Pairs x.2 chatId)

/-- After any run from an access control with nothing armed, an armed code is the most recent one. -/
theorem pending_mostRecent {s₀ s : AccessControl} {h : AccessHistory} (h0 : s₀.pending = ∅)
    (p : Path accessSys s₀ h s) {chatId : Int} :
    ∀ pairing, s.pending[chatId]? = some pairing →
      ∃ issuedAt, MostRecentCode chatId pairing.code issuedAt h ∧
        pairing.expiresAt = issuedAt.saturatingAdd pairingCodeTtl := by
  induction p with
  | start =>
    intro pairing hp
    rw [h0, Std.ExtTreeMap.getElem?_empty] at hp
    cases hp
  | step _ hs ih =>
    intro pairing hp
    cases hs
    obtain ⟨hends, ⟨issuedAt, hi, he⟩ | ⟨hnone, hold⟩⟩ := AccessControl.pending_apply hp
    · exact ⟨issuedAt, since_cons.mpr (Or.inl ⟨hi, hends⟩), he⟩
    · obtain ⟨issuedAt, hrec, he⟩ := ih pairing hold
      exact ⟨issuedAt, since_cons.mpr (Or.inr ⟨⟨hnone, hends⟩, hrec⟩), he⟩

/-- **One call and the allowed set.**  A chat allowed after a call was allowed before it and not
    denied by it, or the call granted it. -/
theorem allowed_apply {s : AccessControl} {op : AccessOp} {chatId : Int}
    (h : chatId ∈ (s.apply op).allowedChatIds) :
    (op = .allowChat chatId ∨ s.Pairs op chatId) ∨
      (op ≠ .denyChat chatId ∧ chatId ∈ s.allowedChatIds) := by
  cases op with
  | armRoom d now =>
    obtain ⟨ha, -⟩ := AccessControl.armRoom_frame s d now
    have h' : chatId ∈ (s.armRoom d now).1.allowedChatIds := h
    rw [ha] at h'
    exact Or.inr ⟨by simp, h'⟩
  | checkChat d =>
    refine Or.inr ⟨by simp, ?_⟩
    simp only [AccessControl.apply, AccessControl.checkChat] at h
    split at h <;> exact h
  | addOwner u => exact Or.inr ⟨by simp, h⟩
  | allowChat d =>
    rcases AccessControl.mem_allowChat.mp h with rfl | h
    · exact Or.inl (Or.inl rfl)
    · exact Or.inr ⟨by simp, h⟩
  | denyChat d =>
    obtain ⟨hne, h⟩ := AccessControl.mem_denyChat.mp h
    exact Or.inr ⟨fun h' => hne (AccessOp.denyChat.inj h'), h⟩
  | attemptPair d submittedCode now =>
    obtain ⟨-, hmem, -⟩ := AccessControl.attemptPair_live s d submittedCode now
    rcases (hmem chatId).mp h with ⟨rfl, hp⟩ | h
    · exact Or.inl (Or.inr ⟨submittedCode, now, rfl, hp⟩)
    · exact Or.inr ⟨by simp, h⟩

/-- After any run, an allowed chat was allowed at the start and never denied, or was granted. -/
theorem allowed_granted {s₀ s : AccessControl} {h : AccessHistory} (p : Path accessSys s₀ h s)
    {chatId : Int} : chatId ∈ s.allowedChatIds →
      (chatId ∈ s₀.allowedChatIds ∧ ∀ x ∈ h, x.2 ≠ .denyChat chatId) ∨ Granted chatId h := by
  induction p with
  | start => exact fun hm => Or.inl ⟨hm, fun _ hx => absurd hx List.not_mem_nil⟩
  | step _ hs ih =>
    intro hm
    cases hs
    rcases allowed_apply hm with hgrant | ⟨hne, hm⟩
    · exact Or.inr (since_cons.mpr (Or.inl hgrant))
    · rcases ih hm with ⟨h0, hnever⟩ | hgrant
      · refine Or.inl ⟨h0, fun x hx => ?_⟩
        rcases List.mem_cons.mp hx with rfl | hx
        · exact hne
        · exact hnever x hx
      · exact Or.inr (since_cons.mpr (Or.inr ⟨hne, hgrant⟩))

/-- What is known of an attempt, in the state `s` after the history `h`, that returns `Paired`. -/
structure AuthenticPairing (h : AccessHistory) (s : AccessControl) (chatId : Int)
    (submittedCode : String) (now : AccessTime) : Prop where
  notAllowed : chatId ∉ s.allowedChatIds
  notLockedOut : (s.lockedUntil chatId now).2 = none
  /-- The submitted bytes are those of a code issued to this chat less than ten minutes ago: issued
      by this very attempt, or else the most recent one, not voided since by a deny or a pairing. -/
  matched : ∃ code : PairingCode, ∃ issuedAt : AccessTime,
    asBytes submittedCode = asBytes code.code ∧ SixDigits submittedCode ∧
    (s.issues (.attemptPair chatId submittedCode now) chatId = some (code, issuedAt) ∨
      (s.issues (.attemptPair chatId submittedCode now) chatId = none ∧
        MostRecentCode chatId code issuedAt h)) ∧
    issuedAt.seconds ≤ now.seconds ∧ now.seconds < issuedAt.seconds + 600

/-- **Pairing is authentic.**  After every run of the methods with a clock that never runs backwards,
    over any chats, submitted strings and generator outputs: (1) an allowed chat was in the initial
    effective allowlist and never denied, or was granted by `allow_chat` or a pairing and not denied
    since; (2) the next attempt returns `Paired` only when `AuthenticPairing` holds of it. -/
theorem pairing_authentic (config : Config) (codeGenerator : Stream' String) {h : AccessHistory}
    {s : AccessControl}
    (p : Path accessSys (.new (.fromConfig config) codeGenerator) h s) :
    (∀ chatId, chatId ∈ s.allowedChatIds →
      (config.Allows chatId ∧ ∀ x ∈ h, x.2 ≠ .denyChat chatId) ∨ Granted chatId h) ∧
    (∀ chatId submittedCode now,
      ClockMonotone ((s, .attemptPair chatId submittedCode now) :: h) →
      (s.attemptPair chatId submittedCode now).2 = .paired →
      AuthenticPairing h s chatId submittedCode now) := by
  constructor
  · intro chatId hm
    rw [← AccessControl.mem_effectiveAllowed]
    exact allowed_granted p hm
  · -- only the third outcome of an attempt is `Paired`
    intro chatId submittedCode now hclock hp
    obtain ⟨hc, hmatch⟩ : s.Compares chatId now ∧
        (s.compareState chatId now).2.1.code = submittedCode := by
      rcases AccessControl.attemptPair_cases s chatId submittedCode now with
        ⟨-, hr⟩ | ⟨-, _, -, hr⟩ | ⟨hc, hmatch, -⟩ | ⟨-, -, hr⟩
      · rw [hr] at hp
        cases hp
      · rw [hr] at hp
        cases hp
      · exact ⟨hc, hmatch⟩
      · rw [hr] at hp
        exact absurd hp (AccessControl.recordFailedAttempt_frame _ chatId now).2.2.2.1
    have hsix : SixDigits submittedCode := hmatch ▸ (s.compareState chatId now).2.1.sixDigits
    refine ⟨hc.1, hc.2, (s.compareState chatId now).2.1, ?_⟩
    obtain ⟨-, -, hpend⟩ := AccessControl.lockedUntil_frame s chatId now
    rcases AccessControl.ensureRoomCode_cases (s.lockedUntil chatId now).1 chatId now with
      ⟨pairing, hpairing, hfresh, hens⟩ | hens
    · -- the armed code, still fresh
      have hcs : s.compareState chatId now = ((s.lockedUntil chatId now).1, pairing.code, false) :=
        hens
      rw [hpend] at hpairing
      obtain ⟨issuedAt, hrec, hexp⟩ := pending_mostRecent rfl p pairing hpairing
      have hbefore : issuedAt.seconds ≤ now.seconds := by
        obtain ⟨x, hx, hissue, -⟩ := Since.exists_mem hrec
        have htime := AccessControl.time_of_issues hissue
        refine (List.pairwise_cons.mp hclock).1 issuedAt (List.mem_filterMap.mpr ⟨x, hx, htime⟩)
      have hafter : now.seconds < issuedAt.seconds + 600 := by
        rw [hexp] at hfresh
        exact lt_of_lt_of_le hfresh (Nat.min_le_left _ _)
      rw [hcs] at hmatch ⊢
      refine ⟨issuedAt, by rw [← hmatch], hsix, Or.inr ⟨?_, hrec⟩, hbefore, hafter⟩
      exact if_neg fun h' => by rw [hcs] at h'; cases h'.2.2
    · -- a code drawn by this attempt
      have hnew : (s.compareState chatId now).2.2 = true := by
        rw [AccessControl.compareState, hens]
      refine ⟨now, by rw [hmatch], hsix, Or.inl (if_pos ⟨rfl, hc, hnew⟩), le_refl _, ?_⟩
      omega

/-- A room is armed at 100 with the generator's `123456` and pairs with that code at 699, the last
    second of its life. -/
theorem pairing_authentic_armed_room :
    AuthenticPairing
      [(.new (.fromConfig ⟨"claude", ∅, {}⟩) (Stream'.const "12-34-56"),
        .armRoom 7 ⟨100, by decide⟩)]
      ((AccessControl.new (.fromConfig ⟨"claude", ∅, {}⟩) (Stream'.const "12-34-56")).apply
        (.armRoom 7 ⟨100, by decide⟩))
      7 "123456" ⟨699, by decide⟩ :=
  (pairing_authentic ⟨"claude", ∅, {}⟩ (Stream'.const "12-34-56") (.step .start rfl)).2 7 "123456"
    ⟨699, by decide⟩ (by simp [ClockMonotone, AccessOp.time]) (by decide)

end Tellm
