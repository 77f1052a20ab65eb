/-
  RESTART EQUIVALENCE: a restart changes no access decision.

  The bot remembers access in two places and reads one of them back at start.  Over any sequence of the
  seven operations that change access, each with its save succeeding or failing, the live sets are those
  that the config gives, and the config is the one in the file; so a restart at any point decides as the
  running bot does (`restart_equivalent`).

  The step lemmas are the handlers' own (`Tellm.Handlers`); here they become one transition system.

  A restart builds `AccessControl::new` from the config that is loaded.  What that decides does not depend
  on the generator of codes, and the pairing gate's own records (armed codes, failures, hints) are not
  part of a decision to let a chat in; they are forgotten, as in the source.

  `RestartSafe` says it of a state: the live sets are the config's, the config is the file's, and for
  every chat and every sender the access control made from the file answers as the live one.  The theorem
  adds the atomicity of a failed save, in every state that is reached and for every one of the seven
  operations: neither copy has changed.  There is nothing to assume about the starting config: a bot that
  has just started is in such a state by construction.
-/
import Tellm.Handlers

namespace Tellm

open Runs

/-- One of the operations on access, from start to end. -/
inductive HandlerOp
  | allowChat (targetChatId : Int)
  | denyChat (targetChatId : Int)
  | pairAttempt (chatId : Int) (code : String) (pairerUserId : Option Int) (now : AccessTime)
  | membershipChange (chatId : Int) (adder : Option Int) (now : AccessTime)
  | pinModel (chatId : Int) (modelKey : String)
  | unpinModel (chatId : Int)
  | addModel (chatId : Int) (presetKey : String)

/-- The operation, with the outcome of the save it may make. -/
def RuntimeHandles.apply (self : RuntimeHandles) (saved : Result Unit) : HandlerOp → RuntimeHandles
  | .allowChat targetChatId => (self.handleAllowChat targetChatId saved).1
  | .denyChat targetChatId => (self.handleDenyChat targetChatId saved).1
  | .pairAttempt chatId code pairerUserId now =>
    (self.handlePairAttempt chatId code pairerUserId now saved).1
  | .membershipChange chatId adder now => self.handleMembershipChange chatId adder now saved
  | .pinModel chatId modelKey => (self.handlePinModel chatId modelKey saved).1
  | .unpinModel chatId => (self.handleUnpinModel chatId saved).1
  | .addModel chatId presetKey => (self.handleAddModel chatId presetKey saved).1

/-- Operations one after the other, each with the outcome of its save. -/
def handlerSys : Sys RuntimeHandles (HandlerOp × Result Unit) where
  step self e := some (self.apply e.2 e.1)

/-- The operations so far, newest first, each with how its save turned out. -/
abbrev HandlerHistory := List (RuntimeHandles × HandlerOp × Result Unit)

/-- The bot just started from its config file. -/
def RuntimeHandles.start (config : Config) (codeGenerator : Stream' String) : RuntimeHandles :=
  ⟨config, config, .new (.fromConfig config) codeGenerator⟩

theorem RuntimeHandles.inSync_start (config : Config) (codeGenerator : Stream' String) :
    (start config codeGenerator).InSync :=
  ⟨AccessControl.mem_effectiveAllowed config, AccessControl.mem_ownerUserIds config, rfl⟩

/-- **One operation**: it keeps the sync, and with a failing save it changes nothing. -/
theorem RuntimeHandles.keeps_apply {self : RuntimeHandles} (hs : self.InSync) (op : HandlerOp)
    (saved : Result Unit) : Keeps self (self.apply saved op) saved := by
  cases op with
  | allowChat targetChatId => exact keeps_handleAllowChat hs targetChatId saved
  | denyChat targetChatId => exact keeps_handleDenyChat hs targetChatId saved
  | pairAttempt chatId code pairerUserId now =>
    exact keeps_handlePairAttempt hs chatId code pairerUserId now saved
  | membershipChange chatId adder now => exact keeps_handleMembershipChange hs chatId adder now saved
  | pinModel chatId modelKey => exact keeps_handlePinModel hs chatId modelKey saved
  | unpinModel chatId => exact keeps_handleUnpinModel hs chatId saved
  | addModel chatId presetKey => exact keeps_handleAddModel hs chatId presetKey saved

/-- The sync holds after every sequence of operations. -/
theorem RuntimeHandles.inSync_run {config : Config} {codeGenerator : Stream' String}
    {h : HandlerHistory} {s : RuntimeHandles}
    (p : Path handlerSys (.start config codeGenerator) h s) : s.InSync := by
  refine p.invariant (inSync_start config codeGenerator) ?_
  intro s e s' hs hstep
  cases hstep
  exact (keeps_apply hs e.1 e.2).inSync

/-- What a restart would find: the live sets are those that the config gives, the config is the file's,
    and the access control made from the file decides as the live one does. -/
structure RestartSafe (handles : RuntimeHandles) : Prop where
  allowed : handles.access.allowedChatIds = (AccessConfig.fromConfig handles.config).effectiveAllowed
  owners : handles.access.ownerUserIds = (AccessConfig.fromConfig handles.config).ownerUserIds
  file : handles.config = handles.configFile
  chatDecision : ∀ codeGenerator chatId,
    (AccessControl.new (.fromConfig handles.configFile) codeGenerator).isChatAllowed chatId =
      handles.access.isChatAllowed chatId
  ownerDecision : ∀ codeGenerator senderUserId messageUnixSeconds now,
    (AccessControl.new (.fromConfig handles.configFile) codeGenerator).checkPrivileged senderUserId
        messageUnixSeconds now =
      handles.access.checkPrivileged senderUserId messageUnixSeconds now

theorem RuntimeHandles.InSync.restartSafe {handles : RuntimeHandles} (hs : handles.InSync) :
    RestartSafe handles := by
  have hallowed : handles.access.allowedChatIds =
      (AccessConfig.fromConfig handles.config).effectiveAllowed := by
    refine Std.ExtTreeSet.ext_mem fun d => ?_
    rw [hs.allowed, AccessControl.mem_effectiveAllowed]
  have howners : handles.access.ownerUserIds =
      (AccessConfig.fromConfig handles.config).ownerUserIds := by
    refine Std.ExtTreeSet.ext_mem fun u => ?_
    rw [hs.owners, AccessControl.mem_ownerUserIds]
  refine ⟨hallowed, howners, hs.saved, fun codeGenerator chatId => ?_,
    fun codeGenerator senderUserId messageUnixSeconds now => ?_⟩
  · rw [AccessControl.isChatAllowed, AccessControl.isChatAllowed, hallowed, hs.saved]
    rfl
  · rw [AccessControl.checkPrivileged, AccessControl.checkPrivileged, howners, hs.saved]
    rfl

/-- **Restart equivalence.**  After any sequence of operations, for any chats and users, each save
    succeeding or failing: a restart decides as the running bot does; and whatever operation comes next,
    if its save fails then config, file, live allowed set and live owner set stay exactly as they are. -/
theorem restart_equivalent {config : Config} {codeGenerator : Stream' String} {h : HandlerHistory}
    {s : RuntimeHandles} (p : Path handlerSys (.start config codeGenerator) h s) :
    RestartSafe s ∧ ∀ op error, s.Unchanged (s.apply (.error error) op) := by
  have hs := RuntimeHandles.inSync_run p
  exact ⟨hs.restartSafe, fun op error => (RuntimeHandles.keeps_apply hs op _).unchanged error rfl⟩

/-- An owner adds the bot to a group, which is approved and saved. -/
theorem restart_equivalent_auto_approval :
    let s := (RuntimeHandles.start ⟨"claude", ∅, ⟨[], [42]⟩⟩ (Stream'.const "123456")).apply (.ok ())
      (.membershipChange (-5) (some 42) ⟨100, by decide⟩)
    s.access.isChatAllowed (-5) = true ∧ RestartSafe s ∧
      ∀ op error, s.Unchanged (s.apply (.error error) op) :=
  ⟨by decide, restart_equivalent (.step .start
    (rfl : handlerSys.step _ (.membershipChange (-5) (some 42) ⟨100, by decide⟩, .ok ()) = _))⟩

end Tellm
