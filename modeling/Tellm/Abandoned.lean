/-
  ABANDONED MUTATIONS: what a room mutation leaves behind whose caller goes away.

  The rollback of `mutate_room` is in the future that asked for the write.  A caller that is dropped while
  it waits leaves its mutation in memory and its snapshot in the channel: if that write succeeds both have
  it, if it fails memory alone has it, and nobody is left to take it back.

  1. **`Unrepaired`**: the steps after which a chat's settings differ and nobody is left, and `Clean`, that
     none has happened since the last successful write of the rooms.
  2. **`Aligned`**: memory has the settings of the LAST snapshot in the channel, or of the file when the
     channel has none.  `Settled` says this of every position of a transaction, memory being taken as it
     will be rolled back.
  3. **`mutation_settled`**: in a run that is clean for a chat, once the channel is empty and no transaction
     is in progress, memory and file agree on the chat.  **`aborted_mutation_stays`**: otherwise they need
     not.

  The failing writes of `Tellm.Writer` and the dropped callers come together here.  A mutation whose
  caller is dropped is not wrong by itself: its snapshot is in the channel, and if the write succeeds
  memory and file agree.  If it fails, the rollback that should follow is gone with the caller.  A chat is
  repaired by any later successful write of the rooms, since a snapshot has all of them.

  The condition is one on steps, by the state that each meets: a snapshot which differs from the file at
  the chat fails to be written, or is lost with the thread or before it is sent, and no mutation waits for
  it; or a mutation of the chat is dropped between its failed write and its rollback.  `Clean` says that
  none of these is more recent than the last successful write of the rooms.

  `mutation_settled` needs the channel to be empty and no transaction to be in progress, because before
  that the difference is on its way.  For every other chat nothing is assumed.
-/
import Tellm.Writer

namespace Tellm

open Runs Tasks Mailboxes

namespace Writer

/-! ## One chat -/

/-- The settings of another chat are not rolled back. -/
theorem paddedAt_undo {d chatId : Int} (hne : chatId ≠ d) {before : Option RoomSettings}
    {settings : BTreeMap Int RoomSettings} : PaddedAt d (undo chatId before settings) settings := by
  left
  rw [getElem?_undo, if_neg hne]

/-! ## Steps that nobody repairs -/

/-- A mutation that can roll back waits for the reply under the ticket. -/
def AwaitedByMutation (p : WriterPool) (ticket : Nat) : Prop :=
  ∃ (i : Nat) (chatId : Int) (before : Option RoomSettings),
    p.tasks[i]? = some (.mutateSaving chatId before ticket)

/-- The step leaves memory with settings of the chat `d` that the file lacks, or the other way round, and
    nobody to repair it: a snapshot that differs from the file at the chat fails to be written, or is lost
    with the thread or before it is sent, and its caller is a removal or has been dropped; or a mutation of
    the chat is dropped between its failed write and its rollback. -/
inductive Unrepaired (d : Int) : WriterPool × WriterMove → Prop
  | failed {p settings queue} (hhead : p.shared.mailbox.queue = .saveRooms settings :: queue)
      (hnobody : ¬ AwaitedByMutation p p.shared.mailbox.replies.length)
      (hdiffers : ¬ PaddedAt d p.shared.disk.rooms settings) : Unrepaired d (p, .receive .err)
  | lost {p before settings after}
      (hqueue : p.shared.mailbox.queue = before ++ .saveRooms settings :: after)
      (hnobody : ¬ AwaitedByMutation p (p.shared.mailbox.replies.length + before.length))
      (hdiffers : ¬ PaddedAt d p.shared.disk.rooms settings) : Unrepaired d (p, .stop)
  | unsent {p i chatId settings} (hi : p.tasks[i]? = some (.removeTaken chatId settings))
      (hclosed : p.shared.mailbox.isOpen = false)
      (hdiffers : ¬ PaddedAt d p.shared.disk.rooms settings) : Unrepaired d (p, .task (.act i .resume))
  | dropped {p i before} (hi : p.tasks[i]? = some (.mutateFailed d before)) :
      Unrepaired d (p, .task (.act i .drop))
  | unread {p i before ticket} (hi : p.tasks[i]? = some (.mutateSaving d before ticket))
      (hreply : p.shared.mailbox.reply ticket = some .err) : Unrepaired d (p, .task (.act i .drop))

/-- The step is a successful write of the rooms. -/
def WroteRooms (x : WriterPool × WriterMove) : Prop :=
  ∃ settings queue, x.2 = .receive .ok ∧ x.1.shared.mailbox.queue = .saveRooms settings :: queue

/-- No step since the last successful write of the rooms has left the chat unrepaired. -/
def Clean (d : Int) (h : WriterRun) : Prop := ¬ Since (fun y => ¬ WroteRooms y) (Unrepaired d) h

variable {d : Int}

theorem clean_cons {x : WriterPool × WriterMove} {h : WriterRun} :
    Clean d (x :: h) ↔ ¬ Unrepaired d x ∧ (WroteRooms x ∨ Clean d h) := by
  rw [Clean, since_cons, Clean]
  tauto

/-- A step of a task writes nothing, so it leaves a history as clean as it was at most. -/
theorem clean_task {m : Move WriterTask Resume} {p : WriterPool} {h : WriterRun}
    (hc : Clean d ((p, .task m) :: h)) : ¬ Unrepaired d (p, .task m) ∧ Clean d h := by
  obtain ⟨hno, hw⟩ := clean_cons.mp hc
  refine ⟨hno, hw.resolve_left ?_⟩
  rintro ⟨settings, queue, hm, -⟩
  cases hm

/-! ## Memory and the channel -/

/-- The snapshots of the rooms among the commands. -/
def snapshots (commands : List PersistenceCommand) : List (BTreeMap Int RoomSettings) :=
  commands.filterMap PersistenceCommand.settings?

/-- At the chat, the settings are a padding of the last of the snapshots; without one, of the file. -/
def AlignedWith (d : Int) (h : WriterRun) (file : BTreeMap Int RoomSettings)
    (pending : List (BTreeMap Int RoomSettings)) (settings : BTreeMap Int RoomSettings) : Prop :=
  match pending.getLast? with
  | some last => PaddedAt d last settings
  | none => Clean d h → PaddedAt d file settings

/-- With what is in the channel. -/
def Aligned (d : Int) (h : WriterRun) (s : Shared) (settings : BTreeMap Int RoomSettings) : Prop :=
  AlignedWith d h s.disk.rooms (snapshots s.mailbox.queue) settings

theorem AlignedWith.pad {h : WriterRun} {file settings settings' : BTreeMap Int RoomSettings}
    {pending : List (BTreeMap Int RoomSettings)} (ha : AlignedWith d h file pending settings)
    (hpad : PaddedAt d settings settings') : AlignedWith d h file pending settings' := by
  unfold AlignedWith at *
  split at ha
  · exact ha.trans hpad
  · exact fun hc => (ha hc).trans hpad

theorem AlignedWith.history {h h' : WriterRun} {file settings : BTreeMap Int RoomSettings}
    {pending : List (BTreeMap Int RoomSettings)} (ha : AlignedWith d h file pending settings)
    (hclean : Clean d h' → Clean d h) : AlignedWith d h' file pending settings := by
  unfold AlignedWith at *
  split at ha
  · exact ha
  · exact fun hc => ha (hclean hc)

theorem alignedWith_concat {h : WriterRun} {file settings last : BTreeMap Int RoomSettings}
    {pending : List (BTreeMap Int RoomSettings)} :
    AlignedWith d h file (pending ++ [last]) settings ↔ PaddedAt d last settings := by
  rw [AlignedWith, List.getLast?_concat]

theorem isRooms_eq_false {command : PersistenceCommand} :
    command.isRooms = false ↔ command.settings? = none := by
  cases command <;> simp [PersistenceCommand.isRooms, PersistenceCommand.file, PersistenceCommand.settings?]

theorem snapshots_append (a b : List PersistenceCommand) : snapshots (a ++ b) = snapshots a ++ snapshots b :=
  List.filterMap_append ..

theorem snapshots_eq_nil {commands : List PersistenceCommand} :
    snapshots commands = [] ↔ ∀ command ∈ commands, command.isRooms = false := by
  simp only [snapshots, List.filterMap_eq_nil_iff, isRooms_eq_false]

/-- A snapshot among the commands. -/
theorem exists_of_mem_snapshots {commands : List PersistenceCommand} {settings : BTreeMap Int RoomSettings}
    (h : settings ∈ snapshots commands) :
    ∃ before after, commands = before ++ .saveRooms settings :: after := by
  obtain ⟨command, hmem, hsettings⟩ := List.mem_filterMap.mp h
  obtain ⟨before, after, rfl⟩ := List.append_of_mem hmem
  cases command with
  | saveRooms settings' =>
    cases hsettings
    exact ⟨before, after, rfl⟩
  | saveConfig config => cases hsettings
  | shutdown => cases hsettings

theorem Disk.rooms_write_other {command : PersistenceCommand} (h : command.isRooms = false) (disk : Disk)
    (result : WriteResult) : (disk.write command result).rooms = disk.rooms := by
  cases command with
  | saveRooms settings => cases h
  | saveConfig config => cases result <;> rfl
  | shutdown => rfl

/-- The thread passes over a command of another kind. -/
theorem AlignedWith.passOver {p : WriterPool} {h : WriterRun} {result : WriteResult}
    {command : PersistenceCommand} {queue : List PersistenceCommand}
    {pending : List (BTreeMap Int RoomSettings)} {settings : BTreeMap Int RoomSettings}
    (ha : AlignedWith d h p.shared.disk.rooms pending settings)
    (hhead : p.shared.mailbox.queue = command :: queue) (hkind : command.isRooms = false) :
    AlignedWith d ((p, .receive result) :: h) (p.shared.disk.write command result).rooms pending
      settings := by
  rw [Disk.rooms_write_other hkind]
  refine ha.history fun hc => (clean_cons.mp hc).2.resolve_left ?_
  rintro ⟨settings, queue', -, hqueue⟩
  obtain ⟨rfl, -⟩ := List.cons.inj (hhead.symm.trans hqueue)
  cases hkind

/-- One pass of the thread: what was aligned stays aligned, unless nobody repairs its failure. -/
theorem AlignedWith.receive {p : WriterPool} {h : WriterRun} {result : WriteResult}
    {command : PersistenceCommand} {queue rest : List PersistenceCommand}
    {settings : BTreeMap Int RoomSettings}
    (ha : AlignedWith d h p.shared.disk.rooms (snapshots (command :: rest)) settings)
    (hhead : p.shared.mailbox.queue = command :: queue)
    (hnobody : ¬ AwaitedByMutation p p.shared.mailbox.replies.length) :
    AlignedWith d ((p, .receive result) :: h) (p.shared.disk.write command result).rooms
      (snapshots rest) settings := by
  cases command with
  | saveConfig config => exact ha.passOver hhead rfl
  | shutdown => exact ha.passOver hhead rfl
  | saveRooms snapshot =>
    have hcons : snapshots (.saveRooms snapshot :: rest) = snapshot :: snapshots rest := rfl
    rw [hcons] at ha
    cases hlast : (snapshots rest).getLast? with
    | some last =>
      -- another snapshot is behind it
      unfold AlignedWith at *
      rw [List.getLast?_cons, hlast] at ha
      rw [hlast]
      exact ha
    | none =>
      rw [List.getLast?_eq_none_iff.mp hlast] at ha ⊢
      have hpadded : PaddedAt d snapshot settings := ha
      intro hc
      cases result with
      | ok => exact hpadded
      | err =>
        by_contra hno
        refine (clean_cons.mp hc).1 (.failed hhead hnobody ?_)
        exact fun hsame => hno (hsame.trans hpadded)

/-- The end of the thread: the same. -/
theorem AlignedWith.stop {p : WriterPool} {h : WriterRun} {settings : BTreeMap Int RoomSettings}
    {ahead rest : List PersistenceCommand}
    (ha : AlignedWith d h p.shared.disk.rooms (snapshots ahead) settings)
    (hqueue : p.shared.mailbox.queue = ahead ++ rest)
    (hnobody : ∀ before : List PersistenceCommand, before.length < ahead.length →
      ¬ AwaitedByMutation p (p.shared.mailbox.replies.length + before.length)) :
    AlignedWith d ((p, .stop) :: h) p.shared.disk.rooms [] settings := by
  intro hc
  obtain ⟨hrepaired, hbefore⟩ := clean_cons.mp hc
  have hclean : Clean d h := by
    refine hbefore.resolve_left ?_
    rintro ⟨settings, queue, hm, -⟩
    cases hm
  cases hlast : (snapshots ahead).getLast? with
  | none =>
    rw [List.getLast?_eq_none_iff.mp hlast] at ha
    exact ha hclean
  | some last =>
    unfold AlignedWith at ha
    rw [hlast] at ha
    obtain ⟨before, after, rfl⟩ := exists_of_mem_snapshots (List.mem_of_getLast? hlast)
    rw [List.append_assoc, List.cons_append] at hqueue
    by_contra hno
    refine hrepaired (.lost hqueue (hnobody before (by simp)) ?_)
    exact fun hsame => hno (hsame.trans ha)

/-! ## The positions of a transaction -/

/-- What holds while a task is inside a transaction of the rooms. -/
def Settled (d : Int) (h : WriterRun) (s : Shared) : WriterTask → Prop
  | .mutateLocked _ _ => Aligned d h s s.rooms.settings
  | .mutateTaken chatId before settings =>
    (s.rooms.get chatId).isSome = true ∧ Padded settings s.rooms.settings ∧
      Aligned d h s (undo chatId before s.rooms.settings)
  | .mutateSaving chatId before ticket =>
    (s.rooms.get chatId).isSome = true ∧
      ((∃ ahead settings, Mailbox.Pending PersistenceCommand.isRooms s.mailbox ticket ahead
          (.saveRooms settings) ∧ Padded settings s.rooms.settings ∧
          AlignedWith d h s.disk.rooms (snapshots ahead) (undo chatId before s.rooms.settings)) ∨
        (snapshots s.mailbox.queue = [] ∧ s.mailbox.reply ticket = some .ok ∧
          Padded s.disk.rooms s.rooms.settings) ∨
        (snapshots s.mailbox.queue = [] ∧ s.mailbox.reply ticket = some .err ∧
          AlignedWith d h s.disk.rooms [] (undo chatId before s.rooms.settings)))
  | .mutateFailed chatId before =>
    (s.rooms.get chatId).isSome = true ∧ snapshots s.mailbox.queue = [] ∧
      AlignedWith d h s.disk.rooms [] (undo chatId before s.rooms.settings)
  | .removeLocked _ => Aligned d h s s.rooms.settings
  | .removeTaken _ settings => Padded settings s.rooms.settings
  | .removeSaving _ _ => Aligned d h s s.rooms.settings
  | _ => True

theorem settled_of_not_holds {h : WriterRun} {s : Shared} {t : WriterTask} (ht : t.holds .rooms = false) :
    Settled d h s t := by
  cases t <;> first | exact trivial | cases ht

/-- Another task may pad the rooms and send commands of other kinds. -/
theorem Settled.frame {h h' : WriterRun} {s s' : Shared} {t : WriterTask}
    {others : List PersistenceCommand} (hs : Settled d h s t) (hdisk : s'.disk = s.disk)
    (hreplies : s'.mailbox.replies = s.mailbox.replies)
    (hqueue : s'.mailbox.queue = s.mailbox.queue ++ others)
    (hothers : t.holds .rooms = true → ∀ command ∈ others, command.isRooms = false)
    (hpad : Padded s.rooms.settings s'.rooms.settings) (hclean : Clean d h' → Clean d h) :
    Settled d h' s' t := by
  cases hholds : t.holds .rooms with
  | false => exact settled_of_not_holds hholds
  | true =>
    have hother := hothers hholds
    have hsnapshots : snapshots s'.mailbox.queue = snapshots s.mailbox.queue := by
      rw [hqueue, snapshots_append, snapshots_eq_nil.mpr hother, List.append_nil]
    have haligned : ∀ {settings settings'}, Aligned d h s settings → Padded settings settings' →
        Aligned d h' s' settings' := by
      intro settings settings' ha hp
      rw [Aligned, hdisk, hsnapshots]
      exact (ha.history hclean).pad (hp d)
    have hreply : ∀ ticket, s'.mailbox.reply ticket = s.mailbox.reply ticket := by
      intro ticket
      rw [Mailbox.reply, hreplies, Mailbox.reply]
    -- a room that exists is not padded, so it still exists
    have hmem : ∀ {chatId}, (s.rooms.get chatId).isSome = true → (s'.rooms.get chatId).isSome = true := by
      intro chatId hsome
      have hd := hpad chatId
      simp only [RoomStates.getElem?_settings] at hd
      rcases hd with hd | ⟨-, hd⟩
      · rw [← Option.isSome_map (f := RoomState.settings), hd, Option.isSome_map, hsome]
      · rw [← Option.isSome_map (f := RoomState.settings), hd]
        rfl
    cases t with
    | mutateLocked chatId f => exact haligned hs hpad
    | mutateTaken chatId before settings =>
      obtain ⟨h1, h2, h3⟩ := hs
      exact ⟨hmem h1, h2.trans hpad, haligned h3 (hpad.undo chatId before)⟩
    | mutateSaving chatId before ticket =>
      obtain ⟨h1, h2⟩ := hs
      have hundo := hpad.undo chatId before
      refine ⟨hmem h1, ?_⟩
      rcases h2 with ⟨ahead, settings, hp, h3, h4⟩ | ⟨h3, h4, h5⟩ | ⟨h3, h4, h5⟩
      · refine Or.inl ⟨ahead, settings, hp.append hqueue hreplies hother, h3.trans hpad, ?_⟩
        rw [hdisk]
        exact (h4.history hclean).pad (hundo d)
      · exact Or.inr (Or.inl ⟨hsnapshots.trans h3, (hreply ticket).trans h4, hdisk ▸ h5.trans hpad⟩)
      · refine Or.inr (Or.inr ⟨hsnapshots.trans h3, (hreply ticket).trans h4, ?_⟩)
        rw [hdisk]
        exact (h5.history hclean).pad (hundo d)
    | mutateFailed chatId before =>
      obtain ⟨h1, h2, h3⟩ := hs
      refine ⟨hmem h1, hsnapshots.trans h2, ?_⟩
      rw [hdisk]
      exact (h3.history hclean).pad (hpad.undo chatId before d)
    | removeLocked chatId => exact haligned hs hpad
    | removeTaken chatId settings => exact Padded.trans hs hpad
    | removeSaving chatId ticket => exact haligned hs hpad
    | _ => trivial

/-- The channel of a task that waits: its snapshot comes last. -/
theorem pending_aligned {h : WriterRun} {s : Shared} {ticket : Nat} {ahead : List PersistenceCommand}
    {settings settings' : BTreeMap Int RoomSettings}
    (hp : Mailbox.Pending PersistenceCommand.isRooms s.mailbox ticket ahead (.saveRooms settings))
    (hpad : Padded settings settings') : Aligned d h s settings' := by
  obtain ⟨⟨after, hqueue, hafter⟩, -⟩ := hp
  have hlast : snapshots s.mailbox.queue = snapshots ahead ++ [settings] := by
    rw [hqueue, snapshots_append]
    show snapshots ahead ++ (settings :: snapshots after) = _
    rw [snapshots_eq_nil.mpr hafter]
  rw [Aligned, hlast]
  exact alignedWith_concat.mpr (hpad d)

/-- What a run keeps. -/
structure Mutations (d : Int) (h : WriterRun) (p : WriterPool) : Prop where
  free : p.shared.roomMutations = none → Aligned d h p.shared p.shared.rooms.settings
  position : ∀ (i : Nat) (t : WriterTask), p.tasks[i]? = some t → Settled d h p.shared t

namespace Mutations

variable {h : WriterRun} {p : WriterPool} {j : Nat} {t : WriterTask} {s' : Shared}
  {next : Option WriterTask} {m : Move WriterTask Resume}

/-- A step outside the transactions of the rooms. -/
theorem quiet {others : List PersistenceCommand} (hs : Mutations d h p)
    (hdisk : s'.disk = p.shared.disk) (hreplies : s'.mailbox.replies = p.shared.mailbox.replies)
    (hqueue : s'.mailbox.queue = p.shared.mailbox.queue ++ others)
    (hothers : ∀ command ∈ others, command.isRooms = false)
    (hpad : Padded p.shared.rooms.settings s'.rooms.settings)
    (hlock : s'.roomMutations = p.shared.roomMutations)
    (hout : ∀ u, next = some u → u.holds .rooms = false) :
    Mutations d ((p, .task m) :: h) (p.put s' j next) := by
  have hclean : Clean d ((p, .task m) :: h) → Clean d h := fun hc => (clean_task hc).2
  refine ⟨?_, ?_⟩
  · intro hfree
    rw [Pool.shared_put] at hfree ⊢
    have ha := ((hs.free (hlock ▸ hfree)).history hclean).pad (hpad d)
    rw [Aligned, hdisk, hqueue, snapshots_append, snapshots_eq_nil.mpr hothers, List.append_nil]
    exact ha
  · intro i u hu
    rw [Pool.tasks_put] at hu
    split at hu
    · exact settled_of_not_holds (hout u hu)
    · exact (hs.position i u hu).frame hdisk hreplies hqueue (fun _ => hothers) hpad hclean

/-- A step of the transaction that holds the lock, or takes it: no other task is in one. -/
theorem active (hothers : ∀ (i : Nat) (u : WriterTask), i ≠ j → p.tasks[i]? = some u →
      u.holds .rooms = false)
    (hfree : s'.roomMutations = none → Aligned d ((p, .task m) :: h) s' s'.rooms.settings)
    (hpos : ∀ u, next = some u → Settled d ((p, .task m) :: h) s' u) :
    Mutations d ((p, .task m) :: h) (p.put s' j next) := by
  refine ⟨hfree, ?_⟩
  intro i u hu
  rw [Pool.tasks_put] at hu
  split at hu
  · exact hpos u hu
  · rename_i hij
    exact settled_of_not_holds (hothers i u (fun h' => hij h'.symm) hu)

/-- A transaction takes the free lock. -/
theorem taken {u : WriterTask} (ha : (lock .rooms).Agrees p) (hfree : p.shared.roomMutations = none)
    (hheld : s'.roomMutations = some j) (hpos : Settled d ((p, .task m) :: h) s' u) :
    Mutations d ((p, .task m) :: h) (p.put s' j (some u)) := by
  refine active (fun i u _ hu => ha.not_holds hfree hu) ?_ ?_
  · intro hfree'
    cases hheld.symm.trans hfree'
  · rintro _ ⟨⟩
    exact hpos

/-- The task that is in a transaction is the only one. -/
theorem alone (ha : (lock .rooms).Agrees p) (ht : p.tasks[j]? = some t) (hholds : t.holds .rooms = true) :
    ∀ (i : Nat) (u : WriterTask), i ≠ j → p.tasks[i]? = some u → u.holds .rooms = false := by
  intro i u hij hu
  rw [Bool.eq_false_iff]
  intro hholds'
  exact hij (ha.unique hu ht hholds' hholds)

/-- A transaction goes on. -/
theorem inside {u : WriterTask} (ha : (lock .rooms).Agrees p) (ht : p.tasks[j]? = some t)
    (hholds : t.holds .rooms = true) (hsame : s'.roomMutations = p.shared.roomMutations)
    (hpos : Settled d ((p, .task m) :: h) s' u) :
    Mutations d ((p, .task m) :: h) (p.put s' j (some u)) := by
  refine active (alone ha ht hholds) ?_ ?_
  · intro hfree
    have hheld : p.shared.roomMutations = some j := ha.1 j t ht hholds
    rw [hsame] at hfree
    cases hheld.symm.trans hfree
  · rintro _ ⟨⟩
    exact hpos

/-- A transaction ends. -/
theorem released (ha : (lock .rooms).Agrees p) (ht : p.tasks[j]? = some t)
    (hholds : t.holds .rooms = true) (haligned : Aligned d ((p, .task m) :: h) s' s'.rooms.settings) :
    Mutations d ((p, .task m) :: h) (p.put s' j none) := by
  refine active (alone ha ht hholds) (fun _ => haligned) ?_
  intro u hu
  cases hu

/-- A transaction is dropped. -/
theorem dropped (hs : Mutations d h p) (ha : (lock .rooms).Agrees p) (ht : p.tasks[j]? = some t)
    (hholds : t.holds .rooms = true) (htaken : t.taken = none) :
    Mutations d ((p, .task (.act j .drop)) :: h) (p.put (p.shared.unlock t) j none) := by
  have hclean : Clean d ((p, .task (.act j .drop)) :: h) → Clean d h := fun hc => (clean_task hc).2
  refine released ha ht hholds ?_
  have hpos := hs.position j t ht
  show Aligned d _ p.shared p.shared.rooms.settings
  -- by the position of the transaction that is dropped
  cases t with
  | mutateLocked chatId f => exact AlignedWith.history hpos hclean
  | mutateTaken chatId before settings => cases htaken
  | mutateSaving chatId before ticket =>
    obtain ⟨-, ⟨ahead, settings, hp, hpad, -⟩ | ⟨hnil, -, hpad⟩ | ⟨hnil, hreply, hundo⟩⟩ := hpos
    · exact pending_aligned hp hpad
    · rw [Aligned, hnil]
      exact fun _ => hpad d
    · -- the write has failed, and the rollback is gone
      rw [Aligned, hnil]
      intro hc
      obtain ⟨hrepaired, hc⟩ := clean_task hc
      have hne : chatId ≠ d := by
        rintro rfl
        exact hrepaired (.unread ht hreply)
      exact (hundo hc).trans (paddedAt_undo hne)
  | mutateFailed chatId before =>
    obtain ⟨-, hnil, hundo⟩ := hpos
    rw [Aligned, hnil]
    intro hc
    obtain ⟨hrepaired, hc⟩ := clean_task hc
    have hne : chatId ≠ d := by
      rintro rfl
      exact hrepaired (.dropped ht)
    exact (hundo hc).trans (paddedAt_undo hne)
  | removeLocked chatId => exact AlignedWith.history hpos hclean
  | removeTaken chatId settings => cases htaken
  | removeSaving chatId ticket => exact AlignedWith.history hpos hclean
  | _ => cases hholds

/-- An act keeps the invariant. -/
theorem act {c : Resume} (hs : Mutations d h p) (ha : (lock .rooms).Agrees p)
    (hended : p.shared.mailbox.isOpen = false → p.shared.mailbox.queue = [])
    (ht : p.tasks[j]? = some t) (hacts : Acts j p.shared t c s' next) :
    Mutations d ((p, .task (.act j c)) :: h) (p.put s' j next) := by
  have hclean : Clean d ((p, .task (.act j c)) :: h) → Clean d h := fun hc => (clean_task hc).2
  have hpos := hs.position j t ht
  -- outside the transactions only commands of another kind are sent
  have hquiet : t.holds .rooms = false → s'.rooms = p.shared.rooms ∨
      Padded p.shared.rooms.settings s'.rooms.settings →
      s'.roomMutations = p.shared.roomMutations → (∀ u, next = some u → u.holds .rooms = false) →
      Mutations d ((p, .task (.act j c)) :: h) (p.put s' j next) := by
    intro hout hrooms hlock hnext
    obtain ⟨hdisk, -, hreplies, -, hqueue⟩ := hacts.frame ht
    refine hs.quiet hdisk hreplies hqueue (fun _ hmem => isRooms_of_enqueued ht hmem hout) ?_ hlock hnext
    rcases hrooms with hsame | hpad
    · rw [hsame]
      exact Padded.refl _
    · exact hpad
  have hsnapshots : p.shared.mailbox.isOpen = false → snapshots p.shared.mailbox.queue = [] := by
    intro hclosed
    rw [hended hclosed]
    rfl
  cases hacts with
  | drop htaken =>
    cases hholds : t.holds .rooms with
    | true => exact hs.dropped ha ht hholds htaken
    | false =>
      refine hquiet hholds (Or.inl rfl) ?_ ?_
      · show (if t.holds .rooms then none else _) = _
        rw [hholds]
        rfl
      · intro u hu
        cases hu
  | mutateLock hfree =>
    exact taken ha hfree rfl (AlignedWith.history (hs.free hfree) hclean)
  | removeLock hfree =>
    exact taken ha hfree rfl (AlignedWith.history (hs.free hfree) hclean)
  | mutateTake =>
    refine inside ha ht rfl rfl ⟨by simp [RoomStates.mutate], Padded.refl _, ?_⟩
    rw [undo_mutate]
    exact AlignedWith.history hpos hclean
  | mutateSend hpost =>
    obtain ⟨hmem, hpad, haligned⟩ := hpos
    exact inside ha ht rfl rfl ⟨hmem, Or.inl ⟨_, _, .post hpost, hpad, haligned.history hclean⟩⟩
  | mutateUnsent hclosed =>
    obtain ⟨hmem, -, haligned⟩ := hpos
    refine inside ha ht rfl rfl ⟨hmem, hsnapshots hclosed, ?_⟩
    rw [Aligned, hsnapshots hclosed] at haligned
    exact haligned.history hclean
  | mutateOk hreply =>
    obtain ⟨-, ⟨ahead, settings, hp, -⟩ | ⟨hnil, -, hpad⟩ | ⟨-, hreply', -⟩⟩ := hpos
    · cases hp.reply_eq_none.symm.trans hreply
    · refine released ha ht rfl ?_
      show Aligned d _ p.shared p.shared.rooms.settings
      rw [Aligned, hnil]
      exact fun _ => hpad d
    · cases hreply'.symm.trans hreply
  | mutateErr hreply =>
    obtain ⟨hmem, ⟨ahead, settings, hp, -⟩ | ⟨-, hreply', -⟩ | ⟨hnil, -, haligned⟩⟩ := hpos
    · cases hp.reply_eq_none.symm.trans hreply
    · cases hreply'.symm.trans hreply
    · exact inside ha ht rfl rfl ⟨hmem, hnil, haligned.history hclean⟩
  | rollBack =>
    obtain ⟨hmem, hnil, haligned⟩ := hpos
    refine released ha ht rfl ?_
    show AlignedWith d _ p.shared.disk.rooms (snapshots p.shared.mailbox.queue)
      (p.shared.rooms.rollBack _ _).settings
    rw [hnil, settings_rollBack hmem]
    exact haligned.history hclean
  | removeTake => exact inside ha ht rfl rfl (Padded.refl _)
  | removeSend hpost =>
    exact inside ha ht rfl rfl (pending_aligned (.post hpost) hpos)
  | removeUnsent hclosed =>
    refine released ha ht rfl ?_
    show AlignedWith d _ p.shared.disk.rooms (snapshots p.shared.mailbox.queue) _
    rw [hsnapshots hclosed]
    intro hc
    by_contra hno
    refine (clean_task hc).1 (.unsent ht hclosed ?_)
    exact fun hsame => hno (hsame.trans (hpos d))
  | removeReturn => exact released ha ht rfl (AlignedWith.history hpos hclean)
  | other hentry _ _ hpad =>
    refine hquiet (WriterTask.holds_of_entry hentry .rooms) (Or.inr hpad) rfl ?_
    intro u hu
    cases hu
  | _ =>
    refine hquiet rfl (Or.inl rfl) rfl ?_
    intro u hu
    cases hu <;> rfl

/-- Only the transaction that holds the lock waits for a snapshot of the rooms. -/
theorem awaited_of_holds {k : Nat} (ha : (lock .rooms).Agrees p) (ht : p.tasks[j]? = some t)
    (hholds : t.holds .rooms = true) (hawaited : AwaitedByMutation p k) :
    ∃ chatId before, t = .mutateSaving chatId before k := by
  obtain ⟨i, chatId, before, hi⟩ := hawaited
  obtain rfl : i = j := ha.unique hi ht rfl hholds
  exact ⟨chatId, before, Option.some.inj (ht.symm.trans hi)⟩

theorem not_awaited_of_free {k : Nat} (ha : (lock .rooms).Agrees p)
    (hfree : p.shared.roomMutations = none) : ¬ AwaitedByMutation p k := by
  rintro ⟨i, chatId, before, hi⟩
  cases ha.not_holds hfree hi

variable {result : WriteResult} {command : PersistenceCommand}
  {mailbox : Mailbox PersistenceCommand WriteResult} {thread : WriterThread}

/-- One pass of the thread, for the task at `j`. -/
theorem settled_receive (hs : Mutations d h p) (ha : (lock .rooms).Agrees p) (ht : p.tasks[j]? = some t)
    (hserve : p.shared.mailbox.serve (answer result) = some (command, mailbox)) :
    Settled d ((p, .receive result) :: h) { p.shared with
      mailbox := mailbox, disk := p.shared.disk.write command result, thread := thread } t := by
  have hpos := hs.position j t ht
  cases hholds : t.holds .rooms with
  | false => exact settled_of_not_holds hholds
  | true =>
    obtain ⟨queue, hhead, hmailbox⟩ := Mailbox.serve_eq_some.mp hserve
    have hnobody := fun k => awaited_of_holds (k := k) ha ht hholds
    have haligned : (∀ chatId before, t ≠ .mutateSaving chatId before p.shared.mailbox.replies.length) →
        ∀ {settings}, Aligned d h p.shared settings → AlignedWith d ((p, .receive result) :: h)
          (p.shared.disk.write command result).rooms (snapshots mailbox.queue) settings := by
      intro hne settings haligned
      rw [Aligned, hhead] at haligned
      rw [hmailbox]
      refine haligned.receive hhead ?_
      intro hawaited
      obtain ⟨chatId, before, rfl⟩ := hnobody _ hawaited
      exact hne chatId before rfl
    -- no snapshot is in the channel, so the head is not one
    have hquiet : snapshots p.shared.mailbox.queue = [] →
        command.isRooms = false ∧ snapshots mailbox.queue = [] := by
      intro hnil
      rw [snapshots_eq_nil, hhead] at hnil
      obtain ⟨hcommand, hqueue⟩ := List.forall_mem_cons.mp hnil
      rw [hmailbox]
      exact ⟨hcommand, snapshots_eq_nil.mpr hqueue⟩
    cases t with
    | mutateLocked chatId f => exact haligned (fun _ _ => by simp) hpos
    | mutateTaken chatId before settings =>
      obtain ⟨hmem, hpad, hundo⟩ := hpos
      exact ⟨hmem, hpad, haligned (fun _ _ => by simp) hundo⟩
    | mutateSaving chatId before ticket =>
      obtain ⟨hmem, ⟨ahead, settings, hp, hpad, hundo⟩ | ⟨hnil, hreply, hpad⟩ | ⟨hnil, hreply, hundo⟩⟩ :=
        hpos
      · refine ⟨hmem, ?_⟩
        rcases hp.serve hserve with ⟨rest, rfl, hrest⟩ | ⟨rfl, rfl, -, hreply, hempty⟩
        · refine Or.inl ⟨rest, settings, hrest, hpad, hundo.receive hhead ?_⟩
          intro hawaited
          obtain ⟨_, _, heq⟩ := hnobody _ hawaited
          have hticket := hp.ticket
          cases heq
          simp at hticket
        · cases result with
          | ok => exact Or.inr (Or.inl ⟨snapshots_eq_nil.mpr hempty, hreply, hpad⟩)
          | err =>
            refine Or.inr (Or.inr ⟨snapshots_eq_nil.mpr hempty, hreply, ?_⟩)
            refine AlignedWith.history hundo fun hc => (clean_cons.mp hc).2.resolve_left ?_
            rintro ⟨_, _, hm, -⟩
            cases hm
      · obtain ⟨hkind, hnil'⟩ := hquiet hnil
        refine ⟨hmem, Or.inr (Or.inl ⟨hnil', Mailbox.reply_serve hreply hserve, ?_⟩)⟩
        show Padded (p.shared.disk.write command result).rooms _
        rw [Disk.rooms_write_other hkind]
        exact hpad
      · obtain ⟨hkind, hnil'⟩ := hquiet hnil
        exact ⟨hmem, Or.inr (Or.inr ⟨hnil', Mailbox.reply_serve hreply hserve,
          hundo.passOver hhead hkind⟩)⟩
    | mutateFailed chatId before =>
      obtain ⟨hmem, hnil, hundo⟩ := hpos
      obtain ⟨hkind, hnil'⟩ := hquiet hnil
      exact ⟨hmem, hnil', hundo.passOver hhead hkind⟩
    | removeLocked chatId => exact haligned (fun _ _ => by simp) hpos
    | removeTaken chatId settings => exact hpos
    | removeSaving chatId ticket => exact haligned (fun _ _ => by simp) hpos
    | _ => cases hholds

/-- The end of the thread, for the task at `j`. -/
theorem settled_stop (hs : Mutations d h p) (ha : (lock .rooms).Agrees p) (ht : p.tasks[j]? = some t) :
    Settled d ((p, .stop) :: h) { p.shared with
      mailbox := p.shared.mailbox.close .err, thread := thread } t := by
  have hpos := hs.position j t ht
  cases hholds : t.holds .rooms with
  | false => exact settled_of_not_holds hholds
  | true =>
    -- the task holds the lock, so every mutation that is awaited is its own
    have hnobody := fun k => awaited_of_holds (k := k) ha ht hholds
    have haligned : (∀ chatId before ticket, t ≠ .mutateSaving chatId before ticket) →
        ∀ {settings}, Aligned d h p.shared settings →
          AlignedWith d ((p, .stop) :: h) p.shared.disk.rooms [] settings := by
      intro hne settings haligned
      refine AlignedWith.stop haligned (List.append_nil _).symm ?_
      intro before _ hawaited
      obtain ⟨chatId, settings', rfl⟩ := hnobody _ hawaited
      exact hne _ _ _ rfl
    have hhistory : Clean d ((p, .stop) :: h) → Clean d h := by
      intro hc
      refine (clean_cons.mp hc).2.resolve_left ?_
      rintro ⟨_, _, hm, -⟩
      cases hm
    cases t with
    | mutateLocked chatId f => exact haligned (fun _ _ _ => by simp) hpos
    | mutateTaken chatId before settings =>
      obtain ⟨hmem, hpad, hundo⟩ := hpos
      exact ⟨hmem, hpad, haligned (fun _ _ _ => by simp) hundo⟩
    | mutateSaving chatId before ticket =>
      obtain ⟨hmem, ⟨ahead, settings, hp, hpad, hundo⟩ | ⟨hnil, hreply, hpad⟩ | ⟨hnil, hreply, hundo⟩⟩ :=
        hpos
      · -- its own snapshot is still in the channel: it is answered as failed, and rolled back
        obtain ⟨after, hqueue, -⟩ := hp.queued
        refine ⟨hmem, Or.inr (Or.inr ⟨rfl, hp.close .err, hundo.stop hqueue ?_⟩)⟩
        intro before' hlt hawaited
        obtain ⟨_, _, heq⟩ := hnobody _ hawaited
        have hticket := hp.ticket
        cases heq
        omega
      · exact ⟨hmem, Or.inr (Or.inl ⟨rfl, Mailbox.reply_close hreply .err, hpad⟩)⟩
      · exact ⟨hmem, Or.inr (Or.inr ⟨rfl, Mailbox.reply_close hreply .err, hundo.history hhistory⟩)⟩
    | mutateFailed chatId before =>
      obtain ⟨hmem, -, hundo⟩ := hpos
      exact ⟨hmem, rfl, hundo.history hhistory⟩
    | removeLocked chatId => exact haligned (fun _ _ _ => by simp) hpos
    | removeTaken chatId settings => exact hpos
    | removeSaving chatId ticket => exact haligned (fun _ _ _ => by simp) hpos
    | _ => cases hholds

end Mutations

/-! ## Every run -/

variable {config : Config} {disk : Disk} {h : WriterRun} {p : WriterPool}

/-- A bot that has just loaded the rooms from the file. -/
def loaded (config : Config) (disk : Disk) : WriterPool := started config (.fromSettings disk.rooms) disk

theorem mutations_run (hp : Path writer (loaded config disk) h p) : Mutations d h p := by
  induction hp with
  | start =>
    refine ⟨fun _ _ => ?_, ?_⟩
    · left
      show (RoomStates.fromSettings disk.rooms).settings[d]? = disk.rooms[d]?
      rw [RoomStates.getElem?_settings, RoomStates.get_fromSettings, Option.map_map]
      exact Option.map_id'
    · intro i t ht
      rw [loaded, started, Pool.idle, Std.ExtTreeMap.getElem?_empty] at ht
      cases ht
  | @step h p p' m hp hs ih =>
    have ha := agrees_run hp .rooms
    rcases writer_cases hs with ⟨i, t, rfl, hentry, -, rfl⟩ | ⟨i, t, c, s', next, rfl, ht, hacts, rfl⟩ |
      ⟨result, command, mailbox, rfl, -, hserve, rfl⟩ | ⟨rfl, -, rfl⟩
    · -- a task starts
      refine ih.quiet rfl rfl (List.append_nil _).symm ?_ (Padded.refl _) rfl ?_
      · intro _ h
        cases h
      · rintro _ ⟨⟩
        exact WriterTask.holds_of_entry hentry .rooms
    · -- a task moves; the mailbox is closed only behind the thread
      refine ih.act ha ?_ ht hacts
      intro hclosed
      have hserved := served_run hp
      by_cases hthread : p.shared.thread = .stopped
      · exact (hserved.ended hthread).2
      · cases hclosed.symm.trans (hserved.channel hthread).1
    · -- the thread receives
      refine ⟨?_, fun i t ht => Mutations.settled_receive ih ha ht hserve⟩
      intro hfree
      obtain ⟨queue, hhead, rfl⟩ := Mailbox.serve_eq_some.mp hserve
      have haligned := ih.free hfree
      rw [Aligned, hhead] at haligned
      exact haligned.receive hhead (Mutations.not_awaited_of_free ha hfree)
    · -- the thread stops
      refine ⟨?_, fun i t ht => Mutations.settled_stop ih ha ht⟩
      intro hfree
      refine AlignedWith.stop (ih.free hfree) (List.append_nil _).symm ?_
      exact fun _ _ => Mutations.not_awaited_of_free ha hfree

/-- No `mutate_room` or `remove_room` is past its lock. -/
def NoTransaction (p : WriterPool) : Prop :=
  ∀ (i : Nat) (t : WriterTask), p.tasks[i]? = some t → t.holds .rooms = false

/-- Memory and file agree on a chat: its room has the settings in the file, or the defaults where the file
    has none; and the file has no room that memory lacks. -/
structure DurableAt (d : Int) (s : Shared) : Prop where
  memory : ∀ room, s.rooms.get d = some room → room.settings = (s.disk.rooms[d]?).getD {}
  file : s.rooms.get d = none → s.disk.rooms[d]? = none

/-- **A cancelled mutation is settled, unless nobody repairs its failure.**  In every run of any number of
    room mutations, room removals, config transactions and shutdowns, each dropped wherever it is suspended,
    every write succeeding or failing: once the channel is empty and no transaction on the rooms is in
    progress, the settings of a chat in memory are its durable settings, provided that since the last
    successful write of the rooms no step has left the chat unrepaired. -/
theorem mutation_settled (hp : Path writer (loaded config disk) h p) (hclean : Clean d h)
    (hdrained : p.shared.mailbox.queue = []) (hno : NoTransaction p) : DurableAt d p.shared := by
  have hfree : p.shared.roomMutations = none := by
    cases hheld : p.shared.roomMutations with
    | none => rfl
    | some i =>
      obtain ⟨t, ht, hholds⟩ := (agrees_run hp .rooms).2 i hheld
      cases (hno i t ht).symm.trans hholds
  have haligned := (mutations_run (d := d) hp).free hfree
  rw [Aligned, hdrained] at haligned
  have hpadded : PaddedAt d p.shared.disk.rooms p.shared.rooms.settings := haligned hclean
  exact ⟨fun _ => hpadded.memory, hpadded.file⟩

/-- A bot that has no rooms yet. -/
def fresh : WriterPool := loaded ⟨"claude", ∅, ⟨[7], []⟩⟩ ⟨⟨"claude", ∅, ⟨[7], []⟩⟩, ∅⟩

/-- `/role pirate`. -/
def setRole (room : RoomState) : RoomState :=
  { room with settings := { room.settings with role := some "pirate" } }.resetHistory

/-- A mutation of chat 7 takes the lock, changes the room, sends its snapshot, and is dropped. -/
def abandon : List WriterMove :=
  [.task (.spawn 0 (.mutateRoom 7 setRole)), .task (.act 0 .resume), .task (.act 0 .resume),
    .task (.act 0 .resume), .task (.act 0 .drop)]

/-- Its write succeeds. -/
theorem mutation_settled_written : ∃ h p, Path writer fresh h p ∧ DurableAt 7 p.shared := by
  have hrun : (writer.run fresh abandon).any (fun p => p.shared.thread == .receiving &&
      p.shared.mailbox.queue.map PersistenceCommand.isRooms == [true] && p.tasks.isEmpty) = true := by
    decide
  obtain ⟨h, p, hp, hstate⟩ := Sys.path_of_run_any _ hrun
  simp only [Bool.and_eq_true, beq_iff_eq] at hstate
  obtain ⟨⟨hthread, hqueue⟩, htasks⟩ := hstate
  obtain ⟨command, hone, hrooms⟩ := List.map_eq_singleton_iff.mp hqueue
  obtain ⟨settings, rfl⟩ : ∃ settings, command = .saveRooms settings := by
    cases command <;> first | exact ⟨_, rfl⟩ | cases hrooms
  obtain ⟨p', hstep, hqueue', htasks'⟩ : ∃ p', writer.step p (.receive .ok) = some p' ∧
      p'.shared.mailbox.queue = [] ∧ p'.tasks = p.tasks := by
    simp [writer, Shared.receive, hthread, Mailbox.serve, hone]
  have hclean : Clean 7 ((p, .receive .ok) :: h) := by
    refine clean_cons.mpr ⟨?_, Or.inl ⟨settings, [], rfl, hone⟩⟩
    intro hno
    cases hno
  refine ⟨_, p', .step hp hstep, mutation_settled (.step hp hstep) hclean hqueue' ?_⟩
  intro i t ht
  rw [htasks', Std.ExtTreeMap.isEmpty_iff.mp htasks, Std.ExtTreeMap.getElem?_empty] at ht
  cases ht

/-- The task is a mutation of the chat's room. -/
def WriterTask.mutates (d : Int) : WriterTask → Bool
  | .mutateRoom chatId _ => chatId == d
  | .mutateLocked chatId _ => chatId == d
  | .mutateTaken chatId _ _ => chatId == d
  | .mutateSaving chatId _ _ => chatId == d
  | .mutateFailed chatId _ => chatId == d
  | _ => false

/-- The step drops a mutation of the chat's room. -/
def cancels (d : Int) (x : WriterPool × WriterMove) : Bool :=
  match x.2 with
  | .task (.act i .drop) => (x.1.tasks[i]?).any (WriterTask.mutates d)
  | _ => false

/-- **An aborted mutation stays.**  The owner denies chat 7 while its `/role` waits for the file: the worker
    is aborted, the write of the rooms and the one of the config fail, and access is restored. -/
theorem aborted_mutation_stays :
    ¬ ∀ (config : Config) (disk : Disk) (d : Int) (h : WriterRun) (p : WriterPool),
      Path writer (loaded config disk) h p → (∃ x ∈ h, cancels d x = true) →
      p.shared.mailbox.queue = [] → NoTransaction p → DurableAt d p.shared := by
  have hrun : (writer.trace fresh (abandon ++
      [.task (.spawn 1 (.saveConfig fun config => { config with telegram := {} })),
        .task (.act 1 .resume), .task (.act 1 .resume), .receive .err, .receive .err,
        .task (.act 1 .resume)])).any (fun r => r.1.any (cancels 7) &&
          r.2.shared.config.telegram.allowedChatIds == [7] && r.2.shared.mailbox.queue == [] &&
          r.2.tasks.isEmpty && (r.2.shared.rooms.get 7).any (fun room => room.settings.role.isSome) &&
          (r.2.shared.disk.rooms[(7 : Int)]?).isNone) = true := by
    decide
  obtain ⟨h, p, hp, hstate⟩ := Sys.path_of_trace_any _ hrun
  simp only [Bool.and_eq_true, beq_iff_eq, List.any_eq_true, Option.any_eq_true,
    Option.isNone_iff_eq_none] at hstate
  obtain ⟨⟨⟨⟨⟨hcancelled, -⟩, hqueue⟩, htasks⟩, room, hroom, hrole⟩, hfile⟩ := hstate
  intro hclaim
  have hno : NoTransaction p := by
    intro i t ht
    rw [Std.ExtTreeMap.isEmpty_iff.mp htasks, Std.ExtTreeMap.getElem?_empty] at ht
    cases ht
  have hdurable := hclaim _ _ 7 h p hp hcancelled hqueue hno
  rw [hdurable.memory room hroom, hfile] at hrole
  cases hrole

end Writer

end Tellm
