/-
  THE WRITER ON REAL FILES: `Tellm.Writer`'s disk, refined to config.toml and rooms.toml.

  `Tellm.Writer` gives the persistence thread a disk that takes a config or the room settings whole.  Here
  the thread runs `save` and `save_settings` instead: it takes a command, writes the file by `write_atomic`
  (`Tellm.Atomic`) while the bot's tasks go on and other tasks read these files and write others, and
  replies with what came of it.

  1. **`machine`**: the two systems run together.  It is assumed that only the thread writes config.toml and
     rooms.toml and that it is not killed while it writes (`allowed`); `config_survives` needs neither.
  2. **`Shows`**: what the files say, once loaded (`Tellm.Saved`), is what the writer's disk says.
  3. **`files_show_disk`**: between two commands the files show the disk; within one, the disk before it
     or, once renamed, the disk after it.  The bot's side of a run is a run of `Tellm.Writer`.
  4. **`config_survives`**: whatever else happens, power loss included, config.toml loads, and gives a
     config that was saved whole.

  The two models are composed by a simulation.  A state of the machine has the writer's state and the
  files', and the thread's position between them: idle, or writing one command.  When the call of
  `write_atomic` returns, the machine takes the writer's step with the result that the call had, so the
  abstract disk moves exactly when a command is answered.

  `Shows` says that the file, if it loads, loads as the disk's config, and the same for the rooms; the
  invariant says which of the two disks, before or after the command, a file shows at each position of the
  call.  The rename is where it changes over.

  The assumption of sole ownership is built into the steps (`allowed`): other tasks may read the two files
  and write any others.  It is not needed for `config_survives`, which lets anybody write config.toml by
  `write_atomic` as long as what is written is the text of a config, and lets any process die.
-/
import Tellm.Durable
import Tellm.Saved
import Tellm.Writer

namespace Tellm

open Runs Tasks Files Tables Atomic Saved

namespace Stored

/-! ## The files -/

/-- The directory that `config_dir` returns. -/
def configPath (dir : String) : PathBuf := ⟨dir, some "config.toml"⟩

/-- The path of the room settings, in the same directory. -/
def roomsPath (dir : String) : PathBuf := ⟨dir, some "rooms.toml"⟩

theorem isHidden_configPath (dir : String) : (configPath dir).isHidden = false := by
  simp [configPath, PathBuf.isHidden]

theorem isHidden_roomsPath (dir : String) : (roomsPath dir).isHidden = false := by
  simp [roomsPath, PathBuf.isHidden]

theorem configPath_ne_roomsPath (dir : String) : configPath dir ≠ roomsPath dir := by
  simp [configPath, roomsPath]

/-- `write_atomic`, with the process that calls it. -/
def writeAtomic (path : PathBuf) (contents : List UInt8) (pid : Nat) : WriteAtomic :=
  { path, contents, mode := none, pid }

@[simp] theorem path_writeAtomic (path : PathBuf) (contents : List UInt8) (pid : Nat) :
    (writeAtomic path contents pid).path = path := rfl

/-- What `tellm_config::save` or `rooms::save_settings` writes, unless it fails first. -/
def commandCall (toml : Toml) (dir : String) (pid : Nat) : Writer.PersistenceCommand → Option WriteAtomic
  | .saveConfig config => (saveContents toml config).toOption.map fun bytes => writeAtomic (configPath dir) bytes pid
  | .saveRooms settings =>
    (saveSettingsContents toml settings).toOption.map fun bytes => writeAtomic (roomsPath dir) bytes pid
  | .shutdown => none

/-! ## The machine -/

/-- `serving`: the file task that writes for the thread. -/
structure Machine where
  bot : Writer.WriterPool
  files : FilePool
  serving : Option Nat := none

/-- A task of the bot moves; a file task moves; the thread takes a command and starts to write, or fails
    before it writes anything; its file task has returned, and it replies; it takes a `Shutdown`; it ends. -/
inductive MachineMove
  | task (m : Move Writer.WriterTask Writer.Resume)
  | file (m : FileMove)
  | begin (i : Nat)
  | refuse
  | finish
  | shutdown
  | stop

/-- What is assumed of the other tasks: nobody but the thread writes config.toml and rooms.toml, which no lock
    sees to (a second tellm in the same directory could), and the process is not killed while the thread
    writes, which would end the bot's side of the run. -/
def allowed (dir : String) (serving : Option Nat) : FileMove → Bool
  | .spawn _ (.createUniqueTemp call _) => call.path != configPath dir && call.path != roomsPath dir
  | .spawn _ _ => true
  | .act i .killed => serving != some i
  | .act _ _ => true

/-- The command that the thread is at. -/
def Machine.command (s : Machine) : Option Writer.PersistenceCommand := s.bot.shared.mailbox.queue.head?

/-- What the thread tells of a write; the error's text is not looked at by the bot. -/
def resultOf : Except IoError Unit → WriteResult
  | .ok () => .ok
  | .error _ => .err

/-- The thread replies. -/
def Machine.reply (s : Machine) (result : WriteResult) : Option Machine :=
  (Writer.writer.step s.bot (.receive result)).map fun bot => { s with bot, serving := none }

/-- The bot's tasks, the thread and the file system, run together.  A command is begun by the thread and
    served by a file task of its own, on which the thread waits. -/
def machine (toml : Toml) (dir : String) (pid : Nat) : Sys Machine MachineMove where
  step s
    | .task m => (Writer.writer.step s.bot (.task m)).map fun bot => { s with bot }
    | .file m =>
      if allowed dir s.serving m then (fileTasks.sys.step s.files m).map fun files => { s with files } else none
    | .begin i =>
      if s.serving.isNone && s.bot.shared.thread == .receiving then do
        let call ← s.command.bind (commandCall toml dir pid)
        let files ← fileTasks.sys.step s.files (.spawn i (.createUniqueTemp call 8))
        some { s with files, serving := some i }
      else none
    | .refuse =>
      match s.serving, s.command with
      | none, some (.saveConfig _) => s.reply .err
      | none, some (.saveRooms _) => s.reply .err
      | _, _ => none
    | .finish =>
      match s.serving.bind fun i => s.files.tasks[i]? with
      | some (.returned _ result) => s.reply (resultOf result)
      | _ => none
    | .shutdown => if s.serving.isNone && s.command == some .shutdown then s.reply .ok else none
    | .stop => (Writer.writer.step s.bot .stop).map fun bot => { s with bot }

/-- The steps so far, newest first. -/
abbrev MachineRun := List (Machine × MachineMove)

/-- What a step is for the bot. -/
def botMove (s : Machine) : MachineMove → Option Writer.WriterMove
  | .task m => some (.task m)
  | .file _ => none
  | .begin _ => none
  | .refuse => some (.receive .err)
  | .finish =>
    match s.serving.bind fun i => s.files.tasks[i]? with
    | some (.returned _ result) => some (.receive (resultOf result))
    | _ => none
  | .shutdown => some (.receive .ok)
  | .stop => some .stop

/-! ## What the files show -/

/-- What is loaded from the files is what the disk holds. -/
structure Shows (toml : Toml) (dir : String) (fs : FileSystem) (disk : Writer.Disk) : Prop where
  config : ∃ image, fs.image (configPath dir) = some image ∧ load toml (.ok image.bytes) = .ok disk.config
  rooms : loadSettings toml ((fs.image (roomsPath dir)).map fun x => .ok x.bytes) = .ok disk.rooms

/-- The toml crate reads back what the command has it write; chat ids are `i64`. -/
def Faithful (toml : Toml) : Writer.PersistenceCommand → Prop
  | .saveConfig config => toml.RoundTrips (Config.codec.encode config)
  | .saveRooms settings =>
    toml.RoundTrips (RoomsToml.codec.encode (roomsToml settings)) ∧ ∀ id ∈ settings, InI64 id
  | .shutdown => True

variable {toml : Toml} {dir : String} {pid : Nat}

theorem Shows.congr {fs fs' : FileSystem} {disk : Writer.Disk} (h : Shows toml dir fs disk)
    (hconfig : fs'.image (configPath dir) = fs.image (configPath dir))
    (hrooms : fs'.image (roomsPath dir) = fs.image (roomsPath dir)) : Shows toml dir fs' disk :=
  ⟨by rw [hconfig]; exact h.config, by rw [hrooms]; exact h.rooms⟩

theorem eq_ok_of_toOption {ε α : Type} {x : Except ε α} {a : α} (h : x.toOption = some a) : x = .ok a := by
  cases x with
  | ok b => exact congrArg Except.ok (Option.some.inj h)
  | error e => cases h

theorem commandCall_path {command : Writer.PersistenceCommand} {call : WriteAtomic}
    (h : commandCall toml dir pid command = some call) :
    call.path.isHidden = false ∧ (call.path = configPath dir ∨ call.path = roomsPath dir) := by
  cases command with
  | saveConfig config =>
    obtain ⟨bytes, -, rfl⟩ := Option.map_eq_some_iff.mp h
    exact ⟨isHidden_configPath dir, Or.inl rfl⟩
  | saveRooms settings =>
    obtain ⟨bytes, -, rfl⟩ := Option.map_eq_some_iff.mp h
    exact ⟨isHidden_roomsPath dir, Or.inr rfl⟩
  | shutdown => cases h

/-- A command's file, published over files that show the disk: they show the disk that it writes. -/
theorem Shows.publish {fs fs' : FileSystem} {disk : Writer.Disk} {command : Writer.PersistenceCommand}
    {call : WriteAtomic} (h : Shows toml dir fs disk) (hcall : commandCall toml dir pid command = some call)
    (hfaithful : Faithful toml command)
    (himage : ∀ n, n.isHidden = false → fs'.image n = if call.path = n then some call.image else fs.image n) :
    Shows toml dir fs' (disk.write command .ok) := by
  have hconfig := himage _ (isHidden_configPath dir)
  have hrooms := himage _ (isHidden_roomsPath dir)
  cases command with
  | saveConfig config =>
    obtain ⟨bytes, hbytes, rfl⟩ := Option.map_eq_some_iff.mp hcall
    have hok := eq_ok_of_toOption hbytes
    rw [path_writeAtomic, if_pos rfl] at hconfig
    rw [path_writeAtomic, if_neg (configPath_ne_roomsPath dir)] at hrooms
    refine ⟨⟨_, hconfig, load_save hfaithful hok⟩, ?_⟩
    rw [hrooms]
    exact h.rooms
  | saveRooms settings =>
    obtain ⟨bytes, hbytes, rfl⟩ := Option.map_eq_some_iff.mp hcall
    have hok := eq_ok_of_toOption hbytes
    rw [path_writeAtomic, if_neg (configPath_ne_roomsPath dir).symm] at hconfig
    rw [path_writeAtomic, if_pos rfl] at hrooms
    refine ⟨?_, ?_⟩
    · rw [hconfig]
      exact h.config
    · rw [hrooms]
      exact loadSettings_saveSettings hfaithful.1 hfaithful.2 hok
  | shutdown => cases hcall

/-! ## The invariant -/

/-- The call whose file the task writes. -/
def writes? : FileTask → Option WriteAtomic
  | .createUniqueTemp call _ => some call
  | .writeAll call _ _ => some call
  | .syncAll call _ => some call
  | .publish call _ => some call
  | .syncParent call => some call
  | .removeTemp call _ _ => some call
  | _ => none

/-- The call of the task, also once it has returned. -/
def call? : FileTask → Option WriteAtomic
  | .returned call _ => some call
  | t => writes? t

/-- The files that the thread writes. -/
def ThreadFile (dir : String) (n : PathBuf) : Prop := n = configPath dir ∨ n = roomsPath dir

/-- While the thread serves a command by the file task `i`: what the files show depends on whether it has
    published. -/
structure Serving (toml : Toml) (dir : String) (pid : Nat) (s : Machine) (i : Nat) : Prop where
  receiving : s.bot.shared.thread = .receiving
  serves : ∃ command call t, s.command = some command ∧ commandCall toml dir pid command = some call ∧
    Faithful toml command ∧ s.files.tasks[i]? = some t ∧ call? t = some call ∧
    Shows toml dir s.files.shared
      (if t.published?.isSome then s.bot.shared.disk.write command .ok else s.bot.shared.disk)

/-- What holds after every step: idle, the files show the disk; serving, the file task is at the thread's
    command; and nobody else writes its files. -/
structure Inv (toml : Toml) (dir : String) (pid : Nat) (s : Machine) : Prop where
  intact : Intact (fun _ _ => True) s.files
  idle : s.serving = none → Shows toml dir s.files.shared s.bot.shared.disk
  busy : ∀ i, s.serving = some i → Serving toml dir pid s i
  alone : ∀ (i : Nat) t call, s.files.tasks[i]? = some t → writes? t = some call → ThreadFile dir call.path →
    s.serving = some i

/-- An act keeps the task's call, unless the process is killed. -/
theorem call?_of_acts {fs fs' : FileSystem} {t t' : FileTask} (h : Atomic.Acts fs t fs' t') :
    t' = .killed ∨ (call? t' = call? t ∧ ∀ call, writes? t' = some call → writes? t = some call) := by
  cases h with
  | died => exact Or.inl rfl
  | _ => exact Or.inr ⟨rfl, fun _ h => by first | exact h | cases h⟩

/-- The bot's side of a step. -/
theorem Inv.bot_step {s : Machine} {m : Writer.WriterMove} {bot : Writer.WriterPool} (h : Inv toml dir pid s)
    (hs : Writer.writer.step s.bot m = some bot) (hm : (∃ m', m = .task m') ∨ m = .stop) :
    Inv toml dir pid { s with bot } := by
  -- the disk stays, and so does the command that is being served
  have hkeeps : bot.shared.disk = s.bot.shared.disk ∧
      (s.bot.shared.thread = .receiving → bot.shared.thread = .receiving ∧
        ∀ command, s.command = some command → bot.shared.mailbox.queue.head? = some command) := by
    rcases Writer.writer_cases hs with ⟨i, t, rfl, -, -, rfl⟩ | ⟨i, t, c, s', next, rfl, ht, hacts, rfl⟩ |
      ⟨result, command, mailbox, rfl, -, -, -⟩ | ⟨rfl, hthread, rfl⟩
    · exact ⟨rfl, fun h => ⟨h, fun _ hc => hc⟩⟩
    · obtain ⟨hdisk, hthread, -, -, hqueue⟩ := hacts.frame ht
      refine ⟨hdisk, fun hrun => ⟨hthread.trans hrun, fun command hc => ?_⟩⟩
      rw [Pool.shared_put, hqueue, List.head?_append_of_ne_nil]
      · exact hc
      · intro hnil
        rw [Machine.command, hnil] at hc
        cases hc
    · rcases hm with ⟨m', hm⟩ | hm
      · cases hm
      · cases hm
    · refine ⟨rfl, fun hrun => ?_⟩
      rw [hthread] at hrun
      cases hrun
  obtain ⟨hdisk, hcommand⟩ := hkeeps
  refine ⟨h.intact, fun hidle => hdisk ▸ h.idle hidle, fun i hi => ?_, h.alone⟩
  obtain ⟨hrun, command, call, t, hhead, hcall, hfaithful, ht, htcall, hshows⟩ := h.busy i hi
  obtain ⟨hrun', hhead'⟩ := hcommand hrun
  exact ⟨hrun', command, call, t, hhead' command hhead, hcall, hfaithful, ht, htcall, by rw [hdisk]; exact hshows⟩

/-- The thread replies: the disk is then what the files show. -/
theorem Inv.replied {s s' : Machine} {command : Writer.PersistenceCommand} {result : WriteResult}
    (h : Inv toml dir pid s) (hreply : s.reply result = some s') (hcommand : s.command = some command)
    (hshows : Shows toml dir s.files.shared (s.bot.shared.disk.write command result))
    (hdone : ∀ (i : Nat) t, s.serving = some i → s.files.tasks[i]? = some t → writes? t = none) :
    Inv toml dir pid s' := by
  obtain ⟨bot, hbot, rfl⟩ := Option.map_eq_some_iff.mp hreply
  rcases Writer.writer_cases hbot with ⟨_, _, hm, -⟩ | ⟨_, _, _, _, _, hm, -⟩ |
    ⟨result', command', mailbox, hm, -, hserve, rfl⟩ | ⟨hm, -⟩
  · cases hm
  · cases hm
  · cases hm
    obtain ⟨queue, hqueue, -⟩ := Mailboxes.Mailbox.serve_eq_some.mp hserve
    rw [Machine.command, hqueue] at hcommand
    obtain rfl := Option.some.inj hcommand
    refine ⟨h.intact, fun _ => hshows, fun i hi => (by cases hi), fun i t call ht hwrites hpath => ?_⟩
    have hnone := hdone i t (h.alone i t call ht hwrites hpath) ht
    rw [hwrites] at hnone
    cases hnone
  · cases hm

/-- A file task starts: not one that writes the thread's files, or the thread's own. -/
theorem Inv.spawned {s : Machine} {i : Nat} {t : FileTask} {serving : Option Nat} (h : Inv toml dir pid s)
    (he : t.entry = true) (hfree : s.files.tasks[i]? = none)
    (hkeep : ∀ j, s.serving = some j → serving = some j)
    (hown : ∀ call, writes? t = some call → ThreadFile dir call.path → serving = some i)
    (hidle : serving = none → s.serving = none)
    (hnew : serving = some i → Serving toml dir pid { s with files := s.files.put s.files.shared i (some t), serving } i)
    (honly : ∀ j, serving = some j → s.serving = some j ∨ j = i) :
    Inv toml dir pid { s with files := s.files.put s.files.shared i (some t), serving } := by
  refine ⟨h.intact.spawn he ?_, fun hnone => h.idle (hidle hnone), fun j hj => ?_, fun j u call hu hwrites hpath => ?_⟩
  · cases t with
    | createUniqueTemp call tries => trivial
    | openRead path => trivial
    | _ => cases he
  · rcases honly j hj with hold | rfl
    · obtain ⟨hrun, command, call, u, hcommand, hcall, hfaithful, hu, hucall, hshows⟩ := h.busy j hold
      refine ⟨hrun, command, call, u, hcommand, hcall, hfaithful, ?_, hucall, hshows⟩
      show (s.files.put s.files.shared i (some t)).tasks[j]? = some u
      rw [Pool.tasks_put, if_neg, hu]
      rintro rfl
      rw [hfree] at hu
      cases hu
    · exact hnew hj
  · change (s.files.put s.files.shared i (some t)).tasks[j]? = some u at hu
    rw [Pool.tasks_put] at hu
    split at hu
    · rename_i hij
      subst hij
      obtain rfl := Option.some.inj hu
      exact hown call hwrites hpath
    · exact hkeep j (h.alone j u call hu hwrites hpath)

theorem image_of_acts {A : PathBuf → Option Image → Prop} {p : FilePool} {i : Nat} {t t' : FileTask}
    {fs' : FileSystem} (h : Intact A p) (ht : p.tasks[i]? = some t) (hacts : Atomic.Acts p.shared t fs' t') :
    (∃ call temp, t = .publish call temp ∧ t' = .syncParent call ∧ ∀ n, n.isHidden = false →
      fs'.image n = if call.path = n then some call.image else p.shared.image n) ∨
    ((t' = .killed ∨ t'.published? = t.published?) ∧
      ∀ n, n.isHidden = false → fs'.image n = p.shared.image n) := by
  rcases publish_or_not hacts with ⟨call, temp, rfl, rfl, hrename⟩ | ⟨hnot, hsame⟩
  · exact Or.inl ⟨call, temp, rfl, rfl, fun n hn => image_of_rename h ht hrename hn⟩
  · exact Or.inr ⟨hsame, fun n hn => image_of_not_publish h ht hacts hnot hn⟩

/-- A file task acts. -/
theorem Inv.acted {s : Machine} {i : Nat} {c : Outcome} {t t' : FileTask} {fs' : FileSystem}
    (h : Inv toml dir pid s) (ht : s.files.tasks[i]? = some t) (hact : t.act c s.files.shared = some (fs', t'))
    (hacts : Atomic.Acts s.files.shared t fs' t') (hallowed : allowed dir s.serving (.act i c) = true) :
    Inv toml dir pid { s with files := s.files.put fs' i (some t') } := by
  have htasks : ∀ j, (s.files.put fs' i (some t')).tasks[j]? = if i = j then some t' else s.files.tasks[j]? :=
    fun j => Pool.tasks_put _ _ _ _ _
  have hconfig := isHidden_configPath dir
  have hrooms := isHidden_roomsPath dir
  -- a file of the thread is published by the task that serves only
  have hother : ∀ call temp, t = .publish call temp → s.serving ≠ some i → ¬ ThreadFile dir call.path := by
    rintro call temp rfl hserving hpath
    exact hserving (h.alone i _ call ht rfl hpath)
  have hshows : ∀ {disk : Writer.Disk}, s.serving ≠ some i → Shows toml dir s.files.shared disk →
      Shows toml dir fs' disk := by
    intro disk hserving hshows
    rcases image_of_acts h.intact ht hacts with ⟨call, temp, rfl, rfl, himage⟩ | ⟨-, himage⟩
    · have hpath := hother call temp rfl hserving
      refine hshows.congr ?_ ?_
      · rw [himage _ hconfig, if_neg fun h => hpath (Or.inl h)]
      · rw [himage _ hrooms, if_neg fun h => hpath (Or.inr h)]
    · exact hshows.congr (himage _ hconfig) (himage _ hrooms)
  have halive : s.serving = some i → t' ≠ .killed := by
    rintro hserving rfl
    obtain rfl := eq_killed_of_act hact
    simp [allowed, hserving] at hallowed
  refine ⟨h.intact.act ht hacts, fun hidle => ?_, fun j hj => ?_, fun j u call hu hwrites hpath => ?_⟩
  · exact hshows (by rw [hidle]; exact fun h => (by cases h)) (h.idle hidle)
  · obtain ⟨hrun, command, call, u, hcommand, hcall, hfaithful, hu, hucall, hold⟩ := h.busy j hj
    by_cases hij : i = j
    · -- the task that serves: it publishes the command's file, or what the files show stays
      subst hij
      obtain rfl : t = u := Option.some.inj (ht.symm.trans hu)
      have hkeeps := (call?_of_acts hacts).resolve_left (halive hj)
      refine ⟨hrun, command, call, t', hcommand, hcall, hfaithful, ?_, hkeeps.1.trans hucall, ?_⟩
      · exact (htasks i).trans (if_pos rfl)
      · rcases image_of_acts h.intact ht hacts with ⟨call', temp, rfl, rfl, himage⟩ | ⟨hsame, himage⟩
        · obtain rfl : call' = call := Option.some.inj hucall
          exact hold.publish hcall hfaithful himage
        · rw [hsame.resolve_left (halive hj)]
          exact hold.congr (himage _ hconfig) (himage _ hrooms)
    · refine ⟨hrun, command, call, u, hcommand, hcall, hfaithful, ?_, hucall, ?_⟩
      · exact (htasks j).trans ((if_neg hij).trans hu)
      · refine hshows ?_ hold
        rw [hj]
        exact fun h => hij (Option.some.inj h).symm
  · change (s.files.put fs' i (some t')).tasks[j]? = some u at hu
    rw [htasks] at hu
    split at hu
    · rename_i hij
      subst hij
      obtain rfl := Option.some.inj hu
      rcases call?_of_acts hacts with rfl | ⟨-, hkeeps⟩
      · cases hwrites
      · exact h.alone i t call ht (hkeeps call hwrites) hpath
    · exact h.alone j u call hu hwrites hpath

/-- The commands that the thread begins to write in the step. -/
def begun : Machine × MachineMove → Option Writer.PersistenceCommand
  | (s, .begin _) => s.command
  | _ => none

/-- **Every step keeps what the files show**: by cases on whether a task of the bot, the thread of the writer
    or the file system moves. Of a command that is begun in the step it asks that its texts can be read back.
    -/
theorem Inv.step {s s' : Machine} {m : MachineMove} (h : Inv toml dir pid s)
    (hfaithful : ∀ command, begun (s, m) = some command → Faithful toml command)
    (hs : (machine toml dir pid).step s m = some s') : Inv toml dir pid s' := by
  cases m with
  | task m =>
    obtain ⟨bot, hbot, rfl⟩ := Option.map_eq_some_iff.mp hs
    exact h.bot_step hbot (Or.inl ⟨m, rfl⟩)
  | stop =>
    obtain ⟨bot, hbot, rfl⟩ := Option.map_eq_some_iff.mp hs
    exact h.bot_step hbot (Or.inr rfl)
  | file m =>
    obtain ⟨hallowed, hs⟩ := Option.ite_none_right_eq_some.mp hs
    obtain ⟨files, hfiles, rfl⟩ := Option.map_eq_some_iff.mp hs
    rcases move_cases hfiles with ⟨i, t, rfl, he, hfree, rfl⟩ | ⟨i, c, t, fs', t', rfl, ht, hact, hacts, rfl⟩
    · refine h.spawned he hfree (fun _ hj => hj) (fun call hwrites hpath => ?_) id (fun hi => ?_) fun _ hj => Or.inl hj
      · -- it does not write the thread's files
        cases t with
        | createUniqueTemp call' tries =>
          obtain rfl : call' = call := Option.some.inj hwrites
          simp only [allowed, Bool.and_eq_true, bne_iff_ne] at hallowed
          exact (hpath.elim hallowed.1 hallowed.2).elim
        | openRead path => cases hwrites
        | _ => cases he
      · -- nor does it take the place of the task that serves
        obtain ⟨-, command, call, t, -, -, -, ht, -⟩ := h.busy i hi
        rw [hfree] at ht
        cases ht
    · exact h.acted ht hact hacts hallowed
  | begin i =>
    obtain ⟨hidle, hs⟩ := Option.ite_none_right_eq_some.mp hs
    rw [Bool.and_eq_true, Option.isNone_iff_eq_none] at hidle
    obtain ⟨call, hcall, hs⟩ := Option.bind_eq_some_iff.mp hs
    obtain ⟨files, hfiles, hs⟩ := Option.bind_eq_some_iff.mp hs
    obtain rfl := Option.some.inj hs
    obtain ⟨command, hcommand, hcall⟩ := Option.bind_eq_some_iff.mp hcall
    obtain ⟨hvisible, hpath⟩ := commandCall_path hcall
    obtain ⟨he, hfree, rfl⟩ := step_spawn hfiles
    refine h.spawned he hfree (fun j hj => ?_) (fun _ _ _ => rfl) (fun h => (by cases h)) (fun _ => ?_) fun j hj => ?_
    · rw [hidle.1] at hj
      cases hj
    · refine ⟨eq_of_beq hidle.2, command, call, .createUniqueTemp call 8, hcommand, hcall,
        hfaithful command hcommand, ?_, rfl, h.idle hidle.1⟩
      exact (Pool.tasks_put _ _ _ _ _).trans (if_pos rfl)
    · exact Or.inr (Option.some.inj hj).symm
  | refuse =>
    have hshows : ∀ command, s.serving = none → s.command = some command → s.reply .err = some s' →
        Inv toml dir pid s' := by
      intro command hidle hcommand hreply
      refine h.replied hreply hcommand ?_ fun i t hi => ?_
      · rw [Writer.Disk.write_err]
        exact h.idle hidle
      · rw [hidle] at hi
        cases hi
    simp only [machine] at hs
    split at hs
    · rename_i hidle hcommand
      exact hshows _ hidle hcommand hs
    · rename_i hidle hcommand
      exact hshows _ hidle hcommand hs
    · cases hs
  | finish =>
    simp only [machine] at hs
    split at hs
    · rename_i call result htask
      obtain ⟨i, hi, ht⟩ := Option.bind_eq_some_iff.mp htask
      obtain ⟨-, command, call', t, hcommand, hcall, hcommandOk, ht', htcall, hshows⟩ := h.busy i hi
      obtain rfl : FileTask.returned call result = t := Option.some.inj (ht.symm.trans ht')
      refine h.replied hs hcommand ?_ fun j u hj hu => ?_
      · cases result with
        | ok _ => exact hshows
        | error error =>
          rw [show resultOf (.error error) = .err from rfl, Writer.Disk.write_err]
          exact hshows
      · obtain rfl : i = j := Option.some.inj (hi.symm.trans hj)
        rw [ht] at hu
        cases hu
        rfl
    · cases hs
  | shutdown =>
    obtain ⟨hidle, hs⟩ := Option.ite_none_right_eq_some.mp hs
    rw [Bool.and_eq_true, Option.isNone_iff_eq_none] at hidle
    refine h.replied hs (eq_of_beq hidle.2) (h.idle hidle.1) fun i t hi => ?_
    rw [hidle.1] at hi
    cases hi

/-! ## Whole runs -/

/-- The bot has started on these files. -/
def startedOn (config : Config) (rooms : RoomStates) (disk : Writer.Disk) (fs : FileSystem) : Machine :=
  { bot := Writer.started config rooms disk, files := Pool.idle fs }

theorem inv_startedOn {config : Config} {rooms : RoomStates} {disk : Writer.Disk} {fs : FileSystem}
    (hstart : Settled fs) (hshows : Shows toml dir fs disk) : Inv toml dir pid (startedOn config rooms disk fs) := by
  refine ⟨intact_idle hstart.bounded fun n _ o ho => ?_, fun _ => hshows, fun i hi => (by cases hi),
    fun i t call ht => ?_⟩
  · rw [hstart.possible, List.mem_singleton] at ho
    subst ho
    exact ⟨trivial, (hstart n).2⟩
  · rw [show (startedOn config rooms disk fs).files.tasks[i]? = none from Std.ExtTreeMap.getElem?_empty] at ht
    cases ht

/-- The run of the bot alone. -/
def botRun (h : MachineRun) : Writer.WriterRun :=
  h.filterMap fun x => (botMove x.1 x.2).map fun m => (x.1.bot, m)

theorem botRun_cons (x : Machine × MachineMove) (h : MachineRun) :
    botRun (x :: h) = ((botMove x.1 x.2).map fun m => (x.1.bot, m)).toList ++ botRun h := by
  rw [botRun, List.filterMap_cons]
  cases botMove x.1 x.2 <;> rfl

/-- What a step does to the bot is a step of `Tellm.Writer`, or nothing. -/
theorem bot_of_step {s s' : Machine} {m : MachineMove} (hs : (machine toml dir pid).step s m = some s') :
    (botMove s m = none ∧ s'.bot = s.bot) ∨
      ∃ m', botMove s m = some m' ∧ Writer.writer.step s.bot m' = some s'.bot := by
  have hreply : ∀ {result : WriteResult}, s.reply result = some s' →
      Writer.writer.step s.bot (.receive result) = some s'.bot := by
    intro result h
    obtain ⟨bot, hbot, rfl⟩ := Option.map_eq_some_iff.mp h
    exact hbot
  cases m with
  | task m =>
    obtain ⟨bot, hbot, rfl⟩ := Option.map_eq_some_iff.mp hs
    exact Or.inr ⟨_, rfl, hbot⟩
  | stop =>
    obtain ⟨bot, hbot, rfl⟩ := Option.map_eq_some_iff.mp hs
    exact Or.inr ⟨_, rfl, hbot⟩
  | file m =>
    obtain ⟨-, hs⟩ := Option.ite_none_right_eq_some.mp hs
    obtain ⟨files, -, rfl⟩ := Option.map_eq_some_iff.mp hs
    exact Or.inl ⟨rfl, rfl⟩
  | begin i =>
    obtain ⟨-, hs⟩ := Option.ite_none_right_eq_some.mp hs
    obtain ⟨call, -, hs⟩ := Option.bind_eq_some_iff.mp hs
    obtain ⟨files, -, hs⟩ := Option.bind_eq_some_iff.mp hs
    obtain rfl := Option.some.inj hs
    exact Or.inl ⟨rfl, rfl⟩
  | refuse =>
    simp only [machine] at hs
    split at hs
    · exact Or.inr ⟨_, rfl, hreply hs⟩
    · exact Or.inr ⟨_, rfl, hreply hs⟩
    · cases hs
  | finish =>
    simp only [machine] at hs
    split at hs
    · rename_i call result htask
      exact Or.inr ⟨.receive (resultOf result), by simp only [botMove, htask], hreply hs⟩
    · cases hs
  | shutdown =>
    obtain ⟨-, hs⟩ := Option.ite_none_right_eq_some.mp hs
    exact Or.inr ⟨_, rfl, hreply hs⟩

theorem bot_path {s₀ s : Machine} {h : MachineRun} (hpath : Path (machine toml dir pid) s₀ h s) :
    Path Writer.writer s₀.bot (botRun h) s.bot := by
  induction hpath with
  | start => exact .start
  | @step h s s' m _ hs ih =>
    rw [botRun_cons]
    rcases bot_of_step hs with ⟨hnone, hbot⟩ | ⟨m', hsome, hbot⟩
    · rw [hnone, hbot]
      exact ih
    · rw [hsome]
      exact .step ih hbot

/-- **The files refine the writer's disk**, as long as only the thread writes them and is not killed at it
    (`allowed`).  The bot's side of a run is a run of `Tellm.Writer`; between two commands the files load as
    what its disk holds; and while the thread is at a command, as what the disk holds or as what the command
    makes of it. -/
theorem files_show_disk {config : Config} {rooms : RoomStates} {disk : Writer.Disk} {fs₀ : FileSystem}
    {h : MachineRun} {s : Machine} (hstart : Settled fs₀) (hshows : Shows toml dir fs₀ disk)
    (hpath : Path (machine toml dir pid) (startedOn config rooms disk fs₀) h s)
    (hfaithful : ∀ x ∈ h, ∀ command, begun x = some command → Faithful toml command) :
    Path Writer.writer (Writer.started config rooms disk) (botRun h) s.bot ∧
      (s.serving = none → Shows toml dir s.files.shared s.bot.shared.disk) ∧
      (s.serving ≠ none → ∃ command, s.command = some command ∧
        (Shows toml dir s.files.shared s.bot.shared.disk ∨
          Shows toml dir s.files.shared (s.bot.shared.disk.write command .ok))) := by
  have hinv : Inv toml dir pid s :=
    hpath.invariant_of_forall (I := Inv toml dir pid)
      (G := fun s m => ∀ command, begun (s, m) = some command → Faithful toml command)
      (inv_startedOn hstart hshows) (fun _ _ _ hI hG hs => hI.step hG hs) hfaithful
  refine ⟨bot_path hpath, hinv.idle, fun hbusy => ?_⟩
  obtain ⟨i, hi⟩ := Option.ne_none_iff_exists'.mp hbusy
  obtain ⟨-, command, call, t, hcommand, -, -, -, -, hshows⟩ := hinv.busy i hi
  refine ⟨command, hcommand, ?_⟩
  split at hshows
  · exact Or.inr hshows
  · exact Or.inl hshows

/-! A bot that starts on a config of one model and no rooms.toml. -/

/-- The config of one local model. -/
def localConfig : Config where
  defaultModel := "local"
  models := (∅ : BTreeMap String ModelConfig).insert "local"
    { wireFormat := .compat, modelName := "llama3", baseUrl := some "http://localhost:11434/v1" }

/-- Its config.toml, as the crate may write it. -/
def localConfigText : String :=
  "default_model = \"local\"\n\n[models.local]\nwire_format = \"compat\"\nmodel_name = \"llama3\"\n" ++
  "base_url = \"http://localhost:11434/v1\"\ntelegram_chat_ids = []\nthinking = \"medium\"\n\n" ++
  "[telegram]\nallowed_chat_ids = []\nowner_user_ids = []\n"

/-- A toml crate that knows this config and an empty rooms.toml. -/
def localToml : Toml :=
  tomlOf hasRooms ("[rooms]\n", RoomsToml.codec.encode (roomsToml ∅)) (localConfigText, Config.codec.encode localConfig)

theorem roundTrips_localConfig : localToml.RoundTrips (Config.codec.encode localConfig) :=
  roundTrips_tomlOf_second rfl rfl (by decide) rfl

theorem load_localConfig : load localToml (.ok (asBytes localConfigText)) = .ok localConfig :=
  load_save roundTrips_localConfig rfl

/-- A directory with that config.toml and nothing else. -/
def localFiles : FileSystem where
  entries n := { now := if n = configPath "tellm" then some 0 else none }
  inodes := [{ bytes := asBytes localConfigText, mode := none, flushed := true }]

theorem settled_localFiles : Settled localFiles := by
  intro n
  refine ⟨rfl, fun i hi => ?_⟩
  obtain ⟨-, hi⟩ := Option.ite_none_right_eq_some.mp hi
  obtain rfl := Option.some.inj hi
  exact ⟨_, rfl, rfl⟩

theorem shows_localFiles : Shows localToml "tellm" localFiles ⟨localConfig, ∅⟩ :=
  ⟨⟨_, rfl, load_localConfig⟩, rfl⟩

/-- The room of chat 5 is removed, and the thread writes rooms.toml. -/
def removeAndSave : List MachineMove :=
  [.task (.spawn 0 (.removeRoom 5)), .task (.act 0 .resume), .task (.act 0 .resume), .task (.act 0 .resume),
    .begin 0] ++ [3, 100, 0, 0, 0, 0].map (fun n => .file (.act 0 (.succeeds n))) ++ [.finish]

theorem files_show_disk_local : ∃ h s, Path (machine localToml "tellm" 7)
    (startedOn localConfig (.fromSettings ∅) ⟨localConfig, ∅⟩ localFiles) h s ∧
    s.bot.shared.mailbox.replies = [.ok] ∧ Shows localToml "tellm" s.files.shared s.bot.shared.disk := by
  have hrun : ((machine localToml "tellm" 7).trace (startedOn localConfig (.fromSettings ∅) ⟨localConfig, ∅⟩ localFiles)
      removeAndSave).any (fun r => r.2.serving.isNone && r.2.bot.shared.mailbox.replies == [.ok] &&
        r.1.all fun x => (begun x).all fun command => command == .saveRooms ∅) = true := by decide
  obtain ⟨h, s, hpath, hend⟩ := Sys.path_of_trace_any _ hrun
  rw [Bool.and_eq_true, Bool.and_eq_true, List.all_eq_true, Option.isNone_iff_eq_none] at hend
  obtain ⟨⟨hidle, hreplies⟩, hbegun⟩ := hend
  refine ⟨h, s, hpath, eq_of_beq hreplies, ?_⟩
  refine (files_show_disk settled_localFiles shows_localFiles hpath ?_).2.1 hidle
  intro x hx command hcommand
  have honly := hbegun x hx
  rw [hcommand] at honly
  obtain rfl := eq_of_beq honly
  exact ⟨roundTrips_tomlOf_first rfl rfl rfl, fun id hid => absurd hid Std.ExtTreeMap.not_mem_empty⟩

/-! ## config.toml across power loss -/

/-- The call saves this config. -/
def SavesConfig (toml : Toml) (call : WriteAtomic) (config : Config) : Prop :=
  toml.RoundTrips (Config.codec.encode config) ∧ saveContents toml config = .ok call.contents

/-- **config.toml always loads**: whoever saves it, whoever reads it, whatever fails, is killed or loses
    power, what is loaded from it, also after one more power loss, is the first config or one that was
    saved, and so is what every reader of it loads. -/
theorem config_survives {fs₀ : FileSystem} {h : FileRun} {p : FilePool} {first : Config} (hstart : Settled fs₀)
    (hpath : Path sys (Pool.idle fs₀) h p)
    (hfirst : ∃ image, fs₀.image (configPath dir) = some image ∧ load toml (.ok image.bytes) = .ok first)
    (hsaves : ∀ call, Requested h call → call.path = configPath dir → ∃ config, SavesConfig toml call config) :
    (∀ loss, ∃ image config, (p.shared.powerLoss loss).image (configPath dir) = some image ∧
      load toml (.ok image.bytes) = .ok config ∧
      (config = first ∨ ∃ call, Requested h call ∧ call.path = configPath dir ∧ SavesConfig toml call config)) ∧
    ∀ (i : Nat) text, p.tasks[i]? = some (FileTask.read (configPath dir) (.ok text)) →
      ∃ config, load toml (.ok text) = .ok config ∧
        (config = first ∨ ∃ call, Requested h call ∧ call.path = configPath dir ∧ SavesConfig toml call config) := by
  obtain ⟨-, hloss, hreads⟩ := never_torn hstart hpath (isHidden_configPath dir)
  obtain ⟨image₀, himage₀, hload₀⟩ := hfirst
  -- a complete image loads
  have hloads : ∀ {image : Image}, Complete fs₀ h (configPath dir) (some image) →
      ∃ config, load toml (.ok image.bytes) = .ok config ∧
        (config = first ∨ ∃ call, Requested h call ∧ call.path = configPath dir ∧ SavesConfig toml call config) := by
    rintro image (hsame | ⟨call, hrequested, hpath, himage⟩)
    · rw [himage₀] at hsame
      obtain rfl := Option.some.inj hsame
      exact ⟨first, hload₀, Or.inl rfl⟩
    · obtain ⟨config, htoml, hcontents⟩ := hsaves call hrequested hpath
      obtain rfl := Option.some.inj himage
      exact ⟨config, load_save htoml hcontents, Or.inr ⟨call, hrequested, hpath, htoml, hcontents⟩⟩
  refine ⟨fun loss => ?_, fun i text ht => ?_⟩
  · have hcomplete := hloss loss
    cases himage : (p.shared.powerLoss loss).image (configPath dir) with
    | none =>
      rw [himage] at hcomplete
      rcases hcomplete with hsame | ⟨call, -, -, hsome⟩
      · rw [himage₀] at hsame
        cases hsame
      · cases hsome
    | some image =>
      rw [himage] at hcomplete
      obtain ⟨config, hload, hfrom⟩ := hloads hcomplete
      exact ⟨image, config, rfl, hload, hfrom⟩
  · obtain ⟨mode, hcomplete⟩ := hreads i text ht
    exact hloads hcomplete

/-! The local bot gets an owner.  The first save of that fails on a full disk, the second goes through up to
    the rename, somebody reads the file, and the power may go at any time after that. -/

/-- The same config, with an owner. -/
def ownedConfig : Config := { localConfig with telegram := { ownerUserIds := [42] } }

/-- Its config.toml. -/
def ownedConfigText : String :=
  "default_model = \"local\"\n\n[models.local]\nwire_format = \"compat\"\nmodel_name = \"llama3\"\n" ++
  "base_url = \"http://localhost:11434/v1\"\ntelegram_chat_ids = []\nthinking = \"medium\"\n\n" ++
  "[telegram]\nallowed_chat_ids = []\nowner_user_ids = [42]\n"

/-- The table is that of a config with owners. -/
def hasOwner (entries : List (String × Tables.Value)) : Bool :=
  match lookup entries "telegram" with
  | some (.table telegram) =>
    match lookup telegram "owner_user_ids" with
    | some (.array (_ :: _)) => true
    | _ => false
  | _ => false

/-- A toml crate that knows both configs. -/
def ownerToml : Toml :=
  tomlOf hasOwner (ownedConfigText, Config.codec.encode ownedConfig) (localConfigText, Config.codec.encode localConfig)

/-- The save of the config with the owner. -/
def ownedWrite : WriteAtomic := writeAtomic (configPath "tellm") (asBytes ownedConfigText) 7

/-- What the first of the two saves ends with. -/
def diskFull : IoError := ⟨.other, "No space left on device"⟩

/-- The whole run. -/
def failThenSave : List Event :=
  [.move (.spawn 0 (.createUniqueTemp ownedWrite 8))] ++ acts 0 [5, 100] ++
    [.move (.act 0 (.fails diskFull))] ++ acts 0 [0] ++
    [.move (.spawn 1 (.createUniqueTemp ownedWrite 8))] ++ acts 1 [6, 1000, 0, 0, 0] ++
    [.move (.spawn 2 (.openRead (configPath "tellm")))] ++ acts 2 [0, 1000, 0]

/-- The call that an event makes. -/
def requested : Event → Option WriteAtomic
  | .move (.spawn _ (.createUniqueTemp call _)) => some call
  | _ => none

theorem config_survives_owned : ∃ h p, Path sys (Pool.idle localFiles) h p ∧
    p.tasks[0]? = some (FileTask.returned ownedWrite (.error diskFull)) ∧
    p.tasks[2]? = some (FileTask.read (configPath "tellm") (.ok (asBytes ownedConfigText))) ∧
    (∀ loss, ∃ image config, (p.shared.powerLoss loss).image (configPath "tellm") = some image ∧
      load ownerToml (.ok image.bytes) = .ok config ∧ (config = localConfig ∨
        ∃ call, Requested h call ∧ call.path = configPath "tellm" ∧ SavesConfig ownerToml call config)) ∧
    ∃ config, load ownerToml (.ok (asBytes ownedConfigText)) = .ok config ∧ (config = localConfig ∨
      ∃ call, Requested h call ∧ call.path = configPath "tellm" ∧ SavesConfig ownerToml call config) := by
  have hlocal : ownerToml.RoundTrips (Config.codec.encode localConfig) :=
    roundTrips_tomlOf_second rfl rfl (by decide +kernel) rfl
  have hfirst : ∃ image, localFiles.image (configPath "tellm") = some image ∧
      load ownerToml (.ok image.bytes) = .ok localConfig := ⟨_, rfl, load_save hlocal rfl⟩
  have howned : ownerToml.RoundTrips (Config.codec.encode ownedConfig) := roundTrips_tomlOf_first rfl rfl rfl
  have hrun : ((sys.trace (Pool.idle localFiles) failThenSave).any fun r =>
      r.2.tasks[0]? == some (FileTask.returned ownedWrite (.error diskFull)) &&
      r.2.tasks[2]? == some (FileTask.read (configPath "tellm") (.ok (asBytes ownedConfigText))) &&
      r.1.all fun x => (requested x.2).all (· == ownedWrite)) = true := by
    decide +kernel
  obtain ⟨h, p, hpath, hend⟩ := Sys.path_of_trace_any _ hrun
  rw [Bool.and_eq_true, Bool.and_eq_true, List.all_eq_true] at hend
  obtain ⟨⟨hfailed, hread⟩, hcalls⟩ := hend
  have hsurvives := config_survives settled_localFiles hpath hfirst fun call hcall _ => by
    obtain ⟨x, hx, i, tries, hspawn⟩ := hcall
    have honly := hcalls x hx
    rw [hspawn] at honly
    obtain rfl := eq_of_beq honly
    exact ⟨ownedConfig, howned, rfl⟩
  exact ⟨h, p, hpath, eq_of_beq hfailed, eq_of_beq hread, hsurvives.1, hsurvives.2 2 _ (eq_of_beq hread)⟩

end Stored

end Tellm
