/-
  FIRST RUN: from an empty directory to a bot that starts.

  `config.toml` marks the setup as complete: `run` asks the questions of `run_first_run` only where there is
  none.  The setup stores two secrets before it publishes the file; its input may end, the terminal, Telegram
  and either backend may fail, and the process may be killed between any two steps and inside each of them.
  Meanwhile `tellm secret set`, or the prompt of a bot that runs, stores secrets too.

  What is assumed, and what the source does not see to by itself:

  - No two calls of `secrets::set` overlap.  `file_set` reads credentials.toml, changes what it has read and
    writes it back under a mutex of its own process; a second process that has read the file before the write
    and writes it after loses what the first has stored.
  - One tellm runs the setup or the bot at a time.
  - A write of `config.toml` that fails publishes nothing (the atomic writes are a model of their own).

  1. **`Stage` and `act`**: the dialogue and what follows it, one operation at a time.
  2. **`setup`**: starts, operations, kills (with the operation in progress carried out or not), and secrets
     that others store.
  3. **`Stage.Ok`** is what each stage relies on; a step keeps it (`Stage.Ok.act`), and no step loses a
     secret (`Kept.setNonempty`).
  4. **`setup_complete`**: where there is a `config.toml`, both secrets can be read and the next start gets as
     far as the bot.

  A process is at a stage of the dialogue, or runs as the bot; it is started with an environment, and may
  be killed at every stage.  The disk is the store of secrets and `config.toml`.  What an operation can do
  to the disk is one of three things (`Effect`): nothing, a secret stored, the file published.

  The invariant looks back at the run: that there is a `config.toml` means that a process of this run has
  published it, and that it had stored both secrets before.  A secret that is there stays there, perhaps
  with another value, since nothing in the program removes one and what is stored is not blank.
-/
import Tellm.Saved
import Tellm.Secrets
import Tellm.Telegram
import Tellm.Validate

namespace Tellm

open Runs Text Secrets Saved

namespace FirstRun

/-! ## Choices and secrets -/

/-- `secrets::TELEGRAM_BOT_TOKEN`. -/
def telegramBotToken : String := "telegram_bot_token"

/-- `secrets::set_nonempty`. -/
def setNonempty (env : Environment) (name : String) (value : List Char) (outcome : Secrets.Outcome)
    (store : Store) : Except SecretError (Option SecretDestination) × Store :=
  let value := trim value
  if value.isEmpty then (.ok none, store)
  else
    match Secrets.set env ⟨name, String.ofList value, outcome⟩ store with
    | (.ok destination, store) => (.ok (some destination), store)
    | (.error error, store) => (.error error, store)

/-- `str::parse::<usize>`. -/
def parseUsize : List Char → Option Nat
  | '+' :: digits => (parseDigits digits).bind fun n => if n < 2 ^ 64 then some n else none
  | digits => (parseDigits digits).bind fun n => if n < 2 ^ 64 then some n else none

/-- `usize::checked_sub`. -/
def checkedSub (n m : Nat) : Option Nat := if m ≤ n then some (n - m) else none

/-- `provider_from_choice`: a number from the list, counted from 1; a blank line is the first. -/
def providerFromChoice (choice : List Char) : Option ProviderPreset :=
  let choice := trim choice
  if choice.isEmpty then providerPresets.head?
  else (parseUsize choice).bind fun n => (checkedSub n 1).bind fun index => providerPresets[index]?

/-- `config_for_preset`: one model, which is the default, and no chat. -/
def configForPreset (preset : ProviderPreset) : Config where
  defaultModel := preset.key
  models := (∅ : BTreeMap String ModelConfig).insert preset.key (modelConfigFromPreset preset)
  telegram := {}

/-! ## The dialogue -/

/-- Why a start of tellm ends. -/
inductive StartError
  | io (error : Atomic.IoError)
  | inputEnded
  | telegram (error : Telegram.TelegramError)
  | notABot
  | secret (error : SecretError)
  | config (error : FileError)
  | missingToken

/-- The texts that are the program's own. -/
def StartError.text : StartError → Option String
  | .inputEnded => some "first-run input ended before setup was complete"
  | .notABot => some "Telegram token did not resolve to a bot account"
  | .missingToken => some ("missing Telegram bot token secret \"" ++ telegramBotToken ++ "\"")
  | _ => none

/-- `tellm_telegram::User`. -/
structure User where
  id : Int
  isBot : Bool
  firstName : String
  username : Option String

/-- `prompt_optional`, of what `read_line` came to; `none` is the end of the input. -/
def promptOptional (input : Except Atomic.IoError (Option (List Char))) : Except StartError (List Char) :=
  match input with
  | .error error => .error (.io error)
  | .ok none => .error .inputEnded
  | .ok (some line) => .ok (trim line)

/-- Where a process stands in `run`.  `askToken` to `report` are `run_first_run`, `new` is `Runtime::new`. -/
inductive Stage
  | askToken
  | checkToken (token : List Char)
  | askProvider (token : List Char)
  | askKey (token : List Char) (preset : ProviderPreset)
  | storeToken (token key : List Char) (preset : ProviderPreset)
  | storeKey (key : List Char) (preset : ProviderPreset)
  | saveConfig (preset : ProviderPreset)
  | report
  | load
  | new (config : Config)
  | running (config : Config) (token : String)
  | ended (result : Except StartError Unit)
  /-- An `expect` of `run_first_run` has fired. -/
  | panicked

/-- What a process does next, and how it turns out. -/
inductive Op
  /-- A write to the terminal fails. -/
  | output (error : Atomic.IoError)
  | line (input : Except Atomic.IoError (Option (List Char)))
  | getMe (answer : Except Telegram.TelegramError User)
  | store (outcome : Secrets.Outcome)
  | save (written : Except Atomic.IoError Unit)
  | reported
  | load (read : Except Atomic.IoError Unit)
  | new (reads : Reads) (rooms : Option (Except Atomic.IoError (List UInt8)))
  /-- The running bot saves its config. -/
  | botSaves (config : Config)
  | exit (result : Except StartError Unit)

/-- What the setup leaves behind. -/
structure Disk where
  secrets : Store
  configToml : Option (List UInt8)

/-- The stages that write to the terminal. -/
def Stage.writes : Stage → Bool
  | .askToken | .askProvider _ | .askKey _ _ | .report => true
  | _ => false

section

variable (toml : Toml) (parse : UrlParser)

/-- The answer of a prompt, with the stage for an error. -/
def answered (input : Except Atomic.IoError (Option (List Char))) (next : List Char → Stage) : Stage :=
  match promptOptional input with
  | .error error => .ended (.error error)
  | .ok value => next value

/-- `tellm_config::save`, up to `write_atomic`. -/
def published (config : Config) (disk : Disk) : Except FileError Disk :=
  match saveContents toml config with
  | .error error => .error error
  | .ok bytes => .ok { disk with configToml := some bytes }

/-- A secret of the dialogue is stored. -/
def stored (result : Except SecretError (Option SecretDestination)) (next : Stage) : Stage :=
  match result with
  | .error error => .ended (.error (.secret error))
  | .ok none => .panicked
  | .ok (some _) => next

/-- What of `Runtime::new` can fail: the token must be found, and rooms.toml must load. -/
def started (env : Environment) (config : Config) (reads : Reads)
    (rooms : Option (Except Atomic.IoError (List UInt8))) (store : Store) : Stage :=
  match Secrets.get env reads telegramBotToken store with
  | none => .ended (.error .missingToken)
  | some token =>
    match loadSettings toml rooms with
    | .error error => .ended (.error (.config error))
    | .ok _ => .running config token

/-- One operation of a process. -/
def act (env : Environment) (disk : Disk) : Stage → Op → Option (Disk × Stage)
  | .askToken, .line input =>
    some (disk, answered input fun value => if value.isEmpty then .askToken else .checkToken value)
  | .checkToken token, .getMe answer =>
    some (disk, match answer with
      | .error error => .ended (.error (.telegram error))
      | .ok bot => if bot.isBot then .askProvider token else .ended (.error .notABot))
  | .askProvider token, .line input =>
    some (disk, answered input fun raw =>
      match providerFromChoice raw with
      | some preset => .askKey token preset
      | none => .askProvider token)
  | .askKey token preset, .line input =>
    some (disk, answered input fun value =>
      if value.isEmpty then .askKey token preset else .storeToken token value preset)
  | .storeToken token key preset, .store outcome =>
    let result := setNonempty env telegramBotToken token outcome disk.secrets
    some ({ disk with secrets := result.2 }, stored result.1 (.storeKey key preset))
  | .storeKey key preset, .store outcome =>
    let result := setNonempty env preset.apiKeySecret key outcome disk.secrets
    some ({ disk with secrets := result.2 }, stored result.1 (.saveConfig preset))
  | .saveConfig preset, .save written =>
    some (match published toml (configForPreset preset) disk, written with
      | .error error, _ => (disk, .ended (.error (.config error)))
      | .ok _, .error error => (disk, .ended (.error (.config (.io error))))
      | .ok disk, .ok () => (disk, .report))
  | .report, .reported => some (disk, .load)
  | .load, .load read =>
    let contents := disk.configToml.elim (.error Atomic.notFound) .ok
    some (disk, match loadValidated toml parse (read.bind fun _ => contents) with
      | .error error => .ended (.error (.config error))
      | .ok config => .new config)
  | .new config, .new reads rooms => some (disk, started toml env config reads rooms disk.secrets)
  | .running config token, .botSaves edited =>
    -- what a bot saves is valid
    match edited.validate parse, published toml edited disk with
    | .ok (), .ok disk => some (disk, .running config token)
    | _, _ => none
  | .running _ _, .exit result => some (disk, .ended result)
  | stage, .output error => if stage.writes then some (disk, .ended (.error (.io error))) else none
  | _, _ => none

/-! ## The system -/

/-- A run of tellm, with its environment. -/
structure Process where
  env : Environment
  stage : Stage

/-- The process that runs, if there is one. -/
structure Machine where
  disk : Disk
  process : Option Process

/-- What happens to the process, or to the secrets beside it. -/
inductive Event
  | start (env : Environment)
  | act (op : Op)
  /-- The process is killed; `last` is what it carried out of the operation in progress. -/
  | kill (last : Option Op)
  /-- `tellm secret set`, or a prompt of the running bot: a whole call of `set`, which falls into none of the
      setup's own. -/
  | set (env : Environment) (name : String) (value : List Char) (outcome : Secrets.Outcome)

/-- The process has come to its end. -/
def Stage.isOver : Stage → Bool
  | .ended _ | .panicked => true
  | _ => false

/-- No tellm runs. -/
def Machine.idle (s : Machine) : Bool := s.process.all (·.stage.isOver)

/-- `run`, without arguments. -/
def Machine.start (s : Machine) (env : Environment) : Machine :=
  { s with process := some ⟨env, if s.disk.configToml.isSome then .load else .askToken⟩ }

/-- The setup as a system: one process at a time, killed at any point, and others who store secrets. -/
def setup : Sys Machine Event where
  step s
    | .start env => if s.idle then some (s.start env) else none
    | .act op => s.process.bind fun p =>
        (act toml parse p.env s.disk p.stage op).map fun r => ⟨r.1, some { p with stage := r.2 }⟩
    | .kill none => s.process.map fun _ => { s with process := none }
    | .kill (some op) => s.process.bind fun p =>
        (act toml parse p.env s.disk p.stage op).map fun r => ⟨r.1, none⟩
    | .set env name value outcome =>
        let secrets := (setNonempty env name value outcome s.disk.secrets).2
        some { s with disk := { s.disk with secrets := secrets } }

end

/-- The steps so far, newest first. -/
abbrev SetupRun := List (Machine × Event)

/-- An empty directory; the keychain may hold anything. -/
def fresh (store : Store) : Machine := ⟨⟨store, none⟩, none⟩

/-- The operation of a step, with the stage that it meets. -/
def operation (x : Machine × Event) : Option (Stage × Op) :=
  match x.2 with
  | .act op | .kill (some op) => x.1.process.map fun p => (p.stage, op)
  | _ => none

/-- The config that an operation writes, if it goes well. -/
def written : Stage × Op → Option Config
  | (.saveConfig preset, .save (.ok ())) => some (configForPreset preset)
  | (.running _ _, .botSaves config) => some config
  | _ => none

/-- The setup publishes `config.toml`. -/
def Publishes (preset : ProviderPreset) (x : Machine × Event) : Prop :=
  operation x = some (.saveConfig preset, .save (.ok ()))

/-- Telegram says that the token is a bot's. -/
def Confirms (token : List Char) (x : Machine × Event) : Prop :=
  ∃ bot, bot.isBot = true ∧ operation x = some (.checkToken token, .getMe (.ok bot))

/-- The setup stores the token. -/
def StoresToken (token : List Char) (x : Machine × Event) : Prop :=
  ∃ key preset outcome, operation x = some (.storeToken token key preset, .store outcome)

/-! ## Secrets stay -/

/-- An environment that overrides nothing. -/
def noOverrides : Environment := fun _ => none

/-- With no overrides every variable is unset. -/
theorem unset (name : String) : noOverrides (envVarName name) = none := rfl

/-- Where nothing overrides the name, a text that is not blank is found under it. -/
def Kept (name : String) (store : Store) : Prop :=
  ∃ value, Secrets.get noOverrides {} name store = some value ∧ trim value.toList ≠ []

/-- Of the environment, `get` looks at the one variable. -/
theorem get_env {env env' : Environment} {name : String} (h : env (envVarName name) = env' (envVarName name))
    (reads : Reads) (store : Store) :
    Secrets.get env reads name store = Secrets.get env' reads name store := by
  unfold Secrets.get
  rw [h]

/-- A secret that is kept is found by every process whose environment leaves its name alone. -/
theorem Kept.get {env : Environment} {name : String} {store : Store} (h : Kept name store)
    (henv : env (envVarName name) = none) :
    ∃ value, Secrets.get env {} name store = some value ∧ trim value.toList ≠ [] := by
  obtain ⟨value, hget, hvalue⟩ := h
  exact ⟨value, (get_env henv {} store).trans hget, hvalue⟩

/-- A trimmed text that is not empty is not blank. -/
theorem trim_trim_ne {text : List Char} (h : trim text ≠ []) : trim (trim text) ≠ [] := by
  intro hblank
  have hne : (trimStart text).reverse.dropWhile isWhitespace ≠ [] := mt List.reverse_eq_nil_iff.mpr h
  -- What `trim_end` leaves ends with a letter.
  have hlast := List.head_dropWhile_not isWhitespace hne
  rw [trim_eq_nil.mp hblank _ (List.mem_reverse.mpr (List.head_mem hne))] at hlast
  cases hlast

variable {env : Environment} {name : String} {value : List Char} {outcome : Secrets.Outcome} {store : Store}

/-- `set_nonempty` by cases: nothing is done, or a value that is not blank is set. -/
theorem setNonempty_cases (env : Environment) (name : String) (value : List Char) (outcome : Secrets.Outcome)
    (store : Store) :
    (trim value = [] ∧ setNonempty env name value outcome store = (.ok none, store)) ∨
    ∃ call : SetCall, call.name = name ∧ trim call.value.toList ≠ [] ∧
      (setNonempty env name value outcome store).2 = (Secrets.set env call store).2 ∧
      (∀ destination, (setNonempty env name value outcome store).1 = .ok destination →
        destination.isSome = true ∧ (Secrets.set env call store).1.isOk = true) := by
  unfold setNonempty
  dsimp only
  split
  · rename_i hempty
    exact Or.inl ⟨List.isEmpty_iff.mp hempty, rfl⟩
  · rename_i hne
    rw [List.isEmpty_iff] at hne
    refine Or.inr ⟨⟨name, String.ofList (trim value), outcome⟩, rfl, ?_, ?_⟩
    · rw [String.toList_ofList]
      exact trim_trim_ne hne
    · split
      · rename_i destination store' hset
        rw [hset]
        exact ⟨rfl, fun _ h => (by cases h; exact ⟨rfl, rfl⟩)⟩
      · rename_i error store' hset
        rw [hset]
        exact ⟨rfl, fun _ h => (by cases h)⟩

/-- No set takes a secret away, whatever it is of and however it turns out. -/
theorem Kept.setNonempty {other : String} (h : Kept other store) (env : Environment) (name : String)
    (value : List Char) (outcome : Secrets.Outcome) :
    Kept other (FirstRun.setNonempty env name value outcome store).2 := by
  rcases setNonempty_cases env name value outcome store with ⟨-, hset⟩ | ⟨call, rfl, hvalue, hset, -⟩
  · rw [hset]
    exact h
  rw [hset]
  obtain ⟨value, hget, hnonblank⟩ := h
  rcases set_cases env call store with ⟨error, hcall⟩ | ⟨hreserved, henv, heffect⟩
  · rw [hcall]
    exact ⟨value, hget, hnonblank⟩
  by_cases hname : call.name = other
  · subst hname
    rcases (heffect.get hreserved (unset call.name)).2 with hsame | hnew
    · exact ⟨value, hsame.trans hget, hnonblank⟩
    · exact ⟨call.value, hnew, hvalue⟩
  · cases hother : isReservedName other with
    | true =>
      rw [get_of_reserved {} hother] at hget
      cases hget
    | false =>
      obtain ⟨hk, hv, hm⟩ := heffect.frame hreserved hother hname
      exact ⟨value, (get_congr {} hk hv hm).trans hget, hnonblank⟩

/-- What `set_nonempty` has stored is found. -/
theorem kept_of_setNonempty {destination : SecretDestination}
    (h : (setNonempty env name value outcome store).1 = .ok (some destination)) :
    Kept name (setNonempty env name value outcome store).2 := by
  rcases setNonempty_cases env name value outcome store with ⟨-, hset⟩ | ⟨call, rfl, hvalue, hset, hok⟩
  · rw [hset] at h
    cases h
  rw [hset]
  obtain ⟨-, hisOk⟩ := hok _ h
  rcases set_cases env call store with ⟨error, hcall⟩ | ⟨hreserved, henv, heffect⟩
  · rw [hcall] at hisOk
    cases hisOk
  · exact ⟨call.value, (heffect.get hreserved (unset call.name)).1 hisOk, hvalue⟩

/-- A text that is not blank is stored, or the storing fails: it is not skipped. -/
theorem setNonempty_ne_none (h : trim value ≠ []) :
    (setNonempty env name value outcome store).1 ≠ .ok none := by
  intro hnone
  rcases setNonempty_cases env name value outcome store with ⟨hblank, -⟩ | ⟨call, -, -, -, hok⟩
  · exact h hblank
  · cases (hok _ hnone).1

/-! ## One operation -/

variable {toml : Toml} {parse : UrlParser} {disk disk' : Disk} {stage stage' : Stage} {op : Op}

/-- What an operation that writes at most `config?` does to the disk. -/
inductive Effect (toml : Toml) (disk : Disk) (config? : Option Config) : Disk → Prop
  | nothing : Effect toml disk config? disk
  | set (env : Environment) (name : String) (value : List Char) (outcome : Secrets.Outcome) :
      Effect toml disk config? { disk with secrets := (setNonempty env name value outcome disk.secrets).2 }
  | save {config : Config} {bytes : List UInt8} :
      config? = some config → saveContents toml config = .ok bytes →
      Effect toml disk config? { disk with configToml := some bytes }

/-- No operation takes a kept secret away: what is set is not blank. -/
theorem Effect.kept {config? : Option Config} (h : Effect toml disk config? disk') {name : String}
    (hkept : Kept name disk.secrets) : Kept name disk'.secrets := by
  cases h with
  | nothing => exact hkept
  | set env name value outcome => exact hkept.setNonempty env name value outcome
  | save hconfig hbytes => exact hkept

/-- Once there is a `config.toml` there always is one. -/
theorem Effect.isSome {config? : Option Config} (h : Effect toml disk config? disk')
    (hsome : disk.configToml.isSome = true) : disk'.configToml.isSome = true := by
  cases h with
  | nothing => exact hsome
  | set env name value outcome => exact hsome
  | save hconfig hbytes => rfl

/-- What is published are the bytes of the config, and nothing else on the disk changes. -/
theorem published_eq_ok {config : Config} (h : published toml config disk = .ok disk') :
    ∃ bytes, saveContents toml config = .ok bytes ∧ disk' = { disk with configToml := some bytes } := by
  unfold published at h
  split at h
  · cases h
  · rename_i bytes hbytes
    cases h
    exact ⟨bytes, hbytes, rfl⟩

/-- An output only ends the process. -/
theorem act_output {error : Atomic.IoError}
    (hact : act toml parse env disk stage (.output error) = some (disk', stage')) :
    disk' = disk ∧ ∃ result, stage' = .ended result := by
  cases stage <;> first
    | cases hact; exact ⟨rfl, _, rfl⟩
    | cases hact

/-- The save at the end of the wizard publishes the preset's config, or ends the process with the disk as it
    was. -/
theorem act_save {result : Except Atomic.IoError Unit}
    (hact : act toml parse env disk stage (.save result) = some (disk', stage')) :
    ∃ preset, stage = .saveConfig preset ∧ ((disk' = disk ∧ ∃ error, stage' = .ended (.error error)) ∨
      (result = .ok () ∧ published toml (configForPreset preset) disk = .ok disk' ∧ stage' = .report)) := by
  cases stage <;> try cases hact
  rename_i preset
  refine ⟨preset, rfl, ?_⟩
  have hsome := Option.some.inj hact
  split at hsome
  · cases hsome
    exact Or.inl ⟨rfl, _, rfl⟩
  · cases hsome
    exact Or.inl ⟨rfl, _, rfl⟩
  · rename_i published hpublished
    cases hsome
    exact Or.inr ⟨rfl, hpublished, rfl⟩

/-- The bot saves configs that are valid, and goes on running with those it has. -/
theorem act_botSaves {edited : Config}
    (hact : act toml parse env disk stage (.botSaves edited) = some (disk', stage')) :
    ∃ config token, stage = .running config token ∧ stage' = .running config token ∧
      edited.validate parse = .ok () ∧ published toml edited disk = .ok disk' := by
  cases stage <;> try cases hact
  rename_i config token
  simp only [act] at hact
  split at hact
  · rename_i published hvalid hpublished
    cases hact
    exact ⟨config, token, rfl, rfl, hvalid, hpublished⟩
  · cases hact

/-- Every operation of a process has one of these effects on the disk. -/
theorem effect_of_act (hact : act toml parse env disk stage op = some (disk', stage')) :
    Effect toml disk (written (stage, op)) disk' := by
  cases op with
  | output error => exact (act_output hact).1 ▸ .nothing
  | line input => cases stage <;> cases hact <;> exact .nothing
  | store outcome => cases stage <;> cases hact <;> exact .set _ _ _ _
  | getMe answer =>
    cases stage <;> cases hact
    exact .nothing
  | reported =>
    cases stage <;> cases hact
    exact .nothing
  | load read =>
    cases stage <;> cases hact
    exact .nothing
  | new reads rooms =>
    cases stage <;> cases hact
    exact .nothing
  | exit result =>
    cases stage <;> cases hact
    exact .nothing
  | save result =>
    obtain ⟨preset, rfl, ⟨rfl, -⟩ | ⟨rfl, hpublished, -⟩⟩ := act_save hact
    · exact .nothing
    · obtain ⟨bytes, hbytes, rfl⟩ := published_eq_ok hpublished
      exact .save rfl hbytes
  | botSaves edited =>
    obtain ⟨config, token, rfl, -, -, hpublished⟩ := act_botSaves hact
    obtain ⟨bytes, hbytes, rfl⟩ := published_eq_ok hpublished
    exact .save rfl hbytes

/-! ## What each stage relies on -/

/-- What a process has asked, checked and stored so far. -/
def Stage.Ok (confirmed : List Char → Prop) (disk : Disk) : Stage → Prop
  | .askToken | .ended _ => True
  | .checkToken token => trim token ≠ []
  | .askProvider token => trim token ≠ [] ∧ confirmed token
  | .askKey token preset => trim token ≠ [] ∧ confirmed token ∧ preset ∈ providerPresets
  | .storeToken token key preset =>
    trim token ≠ [] ∧ confirmed token ∧ trim key ≠ [] ∧ preset ∈ providerPresets
  | .storeKey key preset => trim key ≠ [] ∧ preset ∈ providerPresets ∧ Kept telegramBotToken disk.secrets
  | .saveConfig preset =>
    preset ∈ providerPresets ∧ Kept telegramBotToken disk.secrets ∧ Kept preset.apiKeySecret disk.secrets
  | .report | .load | .new _ | .running _ _ => disk.configToml.isSome = true
  | .panicked => False

variable {confirmed confirmed' : List Char → Prop}

/-- What others do in between takes nothing away. -/
theorem Stage.Ok.mono (h : stage.Ok confirmed disk) (hconfirmed : ∀ token, confirmed token → confirmed' token)
    (hkept : ∀ name, Kept name disk.secrets → Kept name disk'.secrets)
    (hsome : disk.configToml.isSome = true → disk'.configToml.isSome = true) : stage.Ok confirmed' disk' := by
  cases stage with
  | askToken => trivial
  | ended result => trivial
  | panicked => exact h
  | checkToken token => exact h
  | askProvider token => exact ⟨h.1, hconfirmed _ h.2⟩
  | askKey token preset => exact ⟨h.1, hconfirmed _ h.2.1, h.2.2⟩
  | storeToken token key preset => exact ⟨h.1, hconfirmed _ h.2.1, h.2.2⟩
  | storeKey key preset => exact ⟨h.1, h.2.1, hkept _ h.2.2⟩
  | saveConfig preset => exact ⟨h.1, hkept _ h.2.1, hkept _ h.2.2⟩
  | report => exact hsome h
  | load => exact hsome h
  | new config => exact hsome h
  | running config token => exact hsome h

/-- After an answer the stage is all right if it is so for every line. -/
theorem ok_answered {input : Except Atomic.IoError (Option (List Char))} {next : List Char → Stage}
    (h : ∀ line, (next (trim line)).Ok confirmed disk) : (answered input next).Ok confirmed disk := by
  unfold answered promptOptional
  split
  · trivial
  · rename_i value hvalue
    split at hvalue <;> cases hvalue
    exact h _

/-- After a store it is so if it is for every destination, as nothing that is stored here is blank. -/
theorem ok_stored {result : Except SecretError (Option SecretDestination)} {next : Stage}
    (hnone : result ≠ .ok none)
    (h : ∀ destination, result = .ok (some destination) → next.Ok confirmed disk) :
    (stored result next).Ok confirmed disk := by
  cases result with
  | error error => trivial
  | ok destination? =>
    cases destination? with
    | none => exact hnone rfl
    | some destination => exact h destination rfl

/-- A choice that is accepted is one of the presets. -/
theorem providerFromChoice_mem {choice : List Char} {preset : ProviderPreset}
    (h : providerFromChoice choice = some preset) : preset ∈ providerPresets := by
  unfold providerFromChoice at h
  dsimp only at h
  split at h
  · exact List.mem_of_head? h
  · obtain ⟨n, -, h⟩ := Option.bind_eq_some_iff.mp h
    obtain ⟨index, -, h⟩ := Option.bind_eq_some_iff.mp h
    exact List.mem_of_getElem? h

/-- An operation takes a process from what one stage relies on to what the next one does. -/
theorem Stage.Ok.act (h : stage.Ok confirmed disk)
    (hact : FirstRun.act toml parse env disk stage op = some (disk', stage'))
    (hconfirms : ∀ token bot, (stage, op) = (.checkToken token, .getMe (.ok bot)) → bot.isBot = true →
      confirmed token) : stage'.Ok confirmed disk' := by
  have heffect := effect_of_act hact
  cases stage with
  | askToken =>
    cases op <;> cases hact
    · trivial
    · refine ok_answered fun line => ?_
      split
      · trivial
      · rename_i hne
        exact trim_trim_ne (mt List.isEmpty_iff.mpr hne)
  | checkToken token =>
    cases op <;> cases hact
    rename_i answer
    cases answer with
    | error error => trivial
    | ok bot =>
      show Stage.Ok confirmed disk (if bot.isBot then _ else _)
      split
      · rename_i hbot
        exact ⟨h, hconfirms token bot rfl hbot⟩
      · trivial
  | askProvider token =>
    cases op <;> cases hact
    · trivial
    · refine ok_answered fun line => ?_
      split
      · rename_i preset hpreset
        exact ⟨h.1, h.2, providerFromChoice_mem hpreset⟩
      · exact h
  | askKey token preset =>
    cases op <;> cases hact
    · trivial
    · refine ok_answered fun line => ?_
      split
      · exact h
      · rename_i hne
        exact ⟨h.1, h.2.1, trim_trim_ne (mt List.isEmpty_iff.mpr hne), h.2.2⟩
  | storeToken token key preset =>
    cases op <;> cases hact
    refine ok_stored (setNonempty_ne_none h.1) fun destination hstored => ?_
    exact ⟨h.2.2.1, h.2.2.2, kept_of_setNonempty hstored⟩
  | storeKey key preset =>
    cases op <;> cases hact
    refine ok_stored (setNonempty_ne_none h.1) fun destination hstored => ?_
    exact ⟨h.2.1, h.2.2.setNonempty _ _ _ _, kept_of_setNonempty hstored⟩
  | saveConfig preset =>
    cases op with
    | save result =>
      obtain ⟨preset, -, ⟨-, error, rfl⟩ | ⟨-, hpublished, rfl⟩⟩ := act_save hact
      · trivial
      · obtain ⟨bytes, -, rfl⟩ := published_eq_ok hpublished
        exact rfl
    | _ => cases hact
  | report =>
    cases op <;> cases hact
    · trivial
    · exact h
  | load =>
    cases op <;> cases hact
    show Stage.Ok confirmed disk _
    split
    · trivial
    · exact h
  | new config =>
    cases op <;> cases hact
    show Stage.Ok confirmed disk (started _ _ _ _ _ _)
    unfold started
    split
    · trivial
    · split
      · trivial
      · exact h
  | running config token =>
    cases op with
    | botSaves edited =>
      obtain ⟨config, token, -, rfl, -, -⟩ := act_botSaves hact
      exact heffect.isSome h
    | exit result =>
      cases hact
      trivial
    | _ => cases hact
  | ended result => cases op <;> cases hact
  | panicked => exact absurd h id

/-! ## Every run -/

/-- The preset's config has the one model, under the preset's key. -/
theorem model_configForPreset {preset : ProviderPreset} {key : String} {model : ModelConfig}
    (h : (configForPreset preset).models[key]? = some model) :
    key = preset.key ∧ model = modelConfigFromPreset preset := by
  rw [configForPreset, Std.ExtTreeMap.getElem?_insert] at h
  split at h
  · rename_i heq
    exact ⟨(compare_eq_iff_eq.mp heq).symm, (Option.some.inj h).symm⟩
  · rw [Std.ExtTreeMap.getElem?_empty] at h
    cases h

/-- So it is valid, for every preset, given what the parser makes of the presets' URLs. -/
theorem valid_configForPreset (hurls : PresetUrls parse) {preset : ProviderPreset}
    (h : preset ∈ providerPresets) : (configForPreset preset).validate parse = .ok () := by
  refine validate_iff.mpr ⟨Std.ExtTreeMap.mem_insert_self, ?_, ?_⟩
  · intro key model hkey
    obtain ⟨rfl, rfl⟩ := model_configForPreset hkey
    exact validModel_preset hurls h
  · have hpins : (configForPreset preset).pins = [] := by
      refine List.flatMap_eq_nil_iff.mpr fun entry hentry => ?_
      obtain ⟨-, hmodel⟩ := model_configForPreset (Std.ExtTreeMap.mem_toList_iff_getElem?_eq_some.mp hentry)
      rw [hmodel]
      rfl
    rw [hpins]
    exact List.nodup_nil

/-- A valid config that has been published is what the next start loads. -/
theorem loadValidated_published {config : Config} {bytes : List UInt8}
    (htoml : toml.RoundTrips (Config.codec.encode config)) (hvalid : config.validate parse = .ok ())
    (hbytes : saveContents toml config = .ok bytes) : loadValidated toml parse (.ok bytes) = .ok config := by
  rw [loadValidated, load_save htoml hbytes]
  dsimp only
  rw [hvalid]

/-- At some time Telegram has said that the token is a bot's. -/
def Confirmed (h : SetupRun) (token : List Char) : Prop := ∃ x ∈ h, Confirms token x

/-- A step of the system: a start, an operation that is carried out, a kill before one, or a secret that
    another stores. -/
inductive Steps (toml : Toml) (parse : UrlParser) (s : Machine) : Option (Stage × Op) → Machine → Prop
  | start (env : Environment) : s.idle = true → Steps toml parse s none (s.start env)
  | act {p : Process} {op : Op} {disk' : Disk} {stage' : Stage} {process : Option Process} :
      s.process = some p → FirstRun.act toml parse p.env s.disk p.stage op = some (disk', stage') →
      process = some { p with stage := stage' } ∨ process = none →
      Steps toml parse s (some (p.stage, op)) ⟨disk', process⟩
  | kill : Steps toml parse s none { s with process := none }
  | set (env : Environment) (name : String) (value : List Char) (outcome : Secrets.Outcome) :
      Steps toml parse s none
        { s with disk := { s.disk with secrets := (setNonempty env name value outcome s.disk.secrets).2 } }

variable {s s' : Machine} {h : SetupRun}

/-- Every step of the machine is one of those listed. -/
theorem steps_of_step {e : Event} (hs : (setup toml parse).step s e = some s') :
    Steps toml parse s (operation (s, e)) s' := by
  cases e with
  | start env =>
    obtain ⟨hidle, hstart⟩ := Option.ite_none_right_eq_some.mp hs
    obtain rfl := Option.some.inj hstart
    exact .start env hidle
  | act op =>
    obtain ⟨p, hprocess, hmap⟩ := Option.bind_eq_some_iff.mp hs
    obtain ⟨r, hact, rfl⟩ := Option.map_eq_some_iff.mp hmap
    have hoperation : operation (s, .act op) = some (p.stage, op) := by
      rw [operation, hprocess]
      rfl
    rw [hoperation]
    exact .act hprocess hact (Or.inl rfl)
  | kill last =>
    cases last with
    | none =>
      obtain ⟨p, hprocess, rfl⟩ := Option.map_eq_some_iff.mp hs
      exact .kill
    | some op =>
      obtain ⟨p, hprocess, hmap⟩ := Option.bind_eq_some_iff.mp hs
      obtain ⟨r, hact, rfl⟩ := Option.map_eq_some_iff.mp hmap
      have hoperation : operation (s, .kill (some op)) = some (p.stage, op) := by
        rw [operation, hprocess]
        rfl
      rw [hoperation]
      exact .act hprocess hact (Or.inr rfl)
  | set env name value outcome =>
    obtain rfl := Option.some.inj hs
    exact .set env name value outcome

/-- An operation is one of the process that runs, at the stage where that is. -/
theorem process_of_operation {x : Machine × Event} (hx : operation x = some (stage, op)) :
    ∃ p, x.1.process = some p ∧ p.stage = stage := by
  unfold operation at hx
  split at hx
  · obtain ⟨p, hp, hy⟩ := Option.map_eq_some_iff.mp hx
    exact ⟨p, hp, (Prod.mk.inj hy).1⟩
  · obtain ⟨p, hp, hy⟩ := Option.map_eq_some_iff.mp hx
    exact ⟨p, hp, (Prod.mk.inj hy).1⟩
  · cases hx

/-- What holds after every run. -/
structure Inv (toml : Toml) (parse : UrlParser) (h : SetupRun) (s : Machine) : Prop where
  stage : ∀ p, s.process = some p → p.stage.Ok (Confirmed h) s.disk
  config : ∀ bytes, s.disk.configToml = some bytes →
    ∃ config, loadValidated toml parse (.ok bytes) = .ok config
  origin : s.disk.configToml.isSome = true →
    Kept telegramBotToken s.disk.secrets ∧ ∃ x ∈ h, ∃ preset, Publishes preset x
  published : ∀ x ∈ h, ∀ preset, Publishes preset x →
    s.disk.configToml.isSome = true ∧ Kept preset.apiKeySecret s.disk.secrets

/-- A step that leaves `config.toml` alone and is no operation of the process. -/
theorem Inv.frame {x : Machine × Event} (hinv : Inv toml parse h s) (hoperation : operation x = none)
    (hconfig : s'.disk.configToml = s.disk.configToml)
    (hkept : ∀ name, Kept name s.disk.secrets → Kept name s'.disk.secrets)
    (hstage : ∀ p, s'.process = some p → p.stage.Ok (Confirmed h) s.disk) : Inv toml parse (x :: h) s' := by
  refine ⟨fun p hp => ?_, fun bytes hbytes => hinv.config bytes (hconfig ▸ hbytes), fun hsome => ?_, ?_⟩
  · refine (hstage p hp).mono ?_ hkept fun hsome => hconfig ▸ hsome
    rintro token ⟨y, hy, hconfirms⟩
    exact ⟨y, List.mem_cons_of_mem _ hy, hconfirms⟩
  · obtain ⟨htoken, y, hy, hpublishes⟩ := hinv.origin (hconfig ▸ hsome)
    exact ⟨hkept _ htoken, y, List.mem_cons_of_mem _ hy, hpublishes⟩
  · intro y hy preset hpublishes
    rcases List.mem_cons.mp hy with rfl | hy
    · rw [Publishes, hoperation] at hpublishes
      cases hpublishes
    · obtain ⟨hsome, hkey⟩ := hinv.published y hy preset hpublishes
      exact ⟨hconfig ▸ hsome, hkept _ hkey⟩

/-- A config is written by the wizard's save or by the running bot. -/
theorem written_cases {config : Config} (h : written (stage, op) = some config) :
    (∃ preset, stage = .saveConfig preset ∧ op = .save (.ok ()) ∧ config = configForPreset preset) ∨
    ∃ loaded token, stage = .running loaded token ∧ op = .botSaves config := by
  cases op with
  | save result =>
    cases stage <;> try cases h
    cases result with
    | error error => cases h
    | ok _ => exact Or.inl ⟨_, rfl, rfl, (Option.some.inj h).symm⟩
  | botSaves edited =>
    cases stage <;> cases h
    exact Or.inr ⟨_, _, rfl, rfl⟩
  | _ => cases stage <;> cases h

/-- The config that an operation writes is valid. -/
theorem valid_written (hurls : PresetUrls parse) (hok : stage.Ok confirmed disk) {config : Config}
    (hact : act toml parse env disk stage op = some (disk', stage'))
    (hwritten : written (stage, op) = some config) :
    config.validate parse = .ok () := by
  obtain ⟨preset, rfl, rfl, rfl⟩ | ⟨loaded, token, rfl, rfl⟩ := written_cases hwritten
  · exact valid_configForPreset hurls hok.1
  · obtain ⟨_, _, -, -, hvalid, -⟩ := act_botSaves hact
    exact hvalid

/-- A setup whose write goes well publishes. -/
theorem publishes_of_act {preset : ProviderPreset}
    (htoml : toml.RoundTrips (Config.codec.encode (configForPreset preset)))
    (hact : act toml parse env disk (.saveConfig preset) (.save (.ok ())) = some (disk', stage')) :
    ∃ bytes, disk' = { disk with configToml := some bytes } := by
  obtain ⟨bytes, hbytes⟩ := contents_ok htoml
  refine ⟨bytes, ?_⟩
  simp only [act, published, saveContents, hbytes] at hact
  exact (Prod.mk.inj (Option.some.inj hact)).1.symm

/-- An operation of a process keeps the invariant. -/
theorem Inv.act {e : Event} {p : Process} {process : Option Process} (hurls : PresetUrls parse)
    (hinv : Inv toml parse h s) (hp : s.process = some p) (hoperation : operation (s, e) = some (p.stage, op))
    (hact : FirstRun.act toml parse p.env s.disk p.stage op = some (disk', stage'))
    (hprocess : process = some { p with stage := stage' } ∨ process = none)
    (htoml : ∀ config, written (p.stage, op) = some config → toml.RoundTrips (Config.codec.encode config)) :
    Inv toml parse ((s, e) :: h) ⟨disk', process⟩ := by
  have hok := hinv.stage p hp
  have heffect := effect_of_act hact
  have hmore : ∀ token, Confirmed h token → Confirmed ((s, e) :: h) token := by
    rintro token ⟨y, hy, hconfirms⟩
    exact ⟨y, List.mem_cons_of_mem _ hy, hconfirms⟩
  have hok' : stage'.Ok (Confirmed ((s, e) :: h)) disk' := by
    refine (hok.mono hmore (fun _ => id) id).act hact fun token bot hconfirms hbot => ?_
    exact ⟨(s, e), List.mem_cons_self, bot, hbot, hoperation.trans (congrArg some hconfirms)⟩
  -- Where this very step publishes, the stage before it knows of both secrets.
  have hself : ∀ preset, Publishes preset (s, e) →
      disk'.configToml.isSome = true ∧ Kept telegramBotToken s.disk.secrets ∧
        Kept preset.apiKeySecret s.disk.secrets := by
    intro preset hpublishes
    obtain ⟨hstage, rfl⟩ := Prod.mk.inj (Option.some.inj (hoperation.symm.trans hpublishes))
    rw [hstage] at hok hact heffect htoml
    obtain ⟨bytes, rfl⟩ := publishes_of_act (htoml _ rfl) hact
    exact ⟨rfl, hok.2⟩
  refine ⟨?_, ?_, ?_, ?_⟩
  · intro q hq
    rcases hprocess with rfl | rfl
    · obtain rfl := Option.some.inj hq
      exact hok'
    · cases hq
  · intro bytes hbytes
    cases heffect with
    | nothing => exact hinv.config bytes hbytes
    | set env name value outcome => exact hinv.config bytes hbytes
    | save hwritten hcontents =>
      obtain rfl := Option.some.inj hbytes
      exact ⟨_, loadValidated_published (htoml _ hwritten) (valid_written hurls hok hact hwritten) hcontents⟩
  · intro hsome
    have hbefore : s.disk.configToml.isSome = true → Kept telegramBotToken disk'.secrets ∧
        ∃ x ∈ (s, e) :: h, ∃ preset, Publishes preset x := by
      intro hsome
      obtain ⟨htoken, y, hy, hpublishes⟩ := hinv.origin hsome
      exact ⟨heffect.kept htoken, y, List.mem_cons_of_mem _ hy, hpublishes⟩
    cases hwritten : written (p.stage, op) with
    | none =>
      rw [hwritten] at heffect
      cases heffect with
      | nothing => exact hbefore hsome
      | set env name value outcome => exact hbefore hsome
      | save hwritten _ => cases hwritten
    | some config =>
      obtain ⟨preset, hstage, rfl, -⟩ | ⟨loaded, token, hstage, rfl⟩ := written_cases hwritten
      · have hpublishes : Publishes preset (s, e) := hoperation.trans (hstage ▸ rfl)
        obtain ⟨-, htoken, -⟩ := hself preset hpublishes
        exact ⟨heffect.kept htoken, (s, e), List.mem_cons_self, preset, hpublishes⟩
      · rw [hstage] at hok
        exact hbefore hok
  · intro y hy preset hpublishes
    rcases List.mem_cons.mp hy with rfl | hy
    · obtain ⟨hsome, -, hkey⟩ := hself preset hpublishes
      exact ⟨hsome, heffect.kept hkey⟩
    · obtain ⟨hsome, hkey⟩ := hinv.published y hy preset hpublishes
      exact ⟨heffect.isSome hsome, heffect.kept hkey⟩

/-- The invariant holds in every state of a run whose written configs are read back as they were. -/
theorem inv_run (hurls : PresetUrls parse) {store : Store} (hpath : Path (setup toml parse) (fresh store) h s)
    (htoml : ∀ x ∈ h, ∀ y, operation x = some y → ∀ config, written y = some config →
      toml.RoundTrips (Config.codec.encode config)) : Inv toml parse h s := by
  induction hpath with
  | start =>
    exact ⟨fun _ hp => (by cases hp), fun _ hbytes => (by cases hbytes), fun hsome => (by cases hsome),
      fun _ hx => absurd hx List.not_mem_nil⟩
  | @step h s s' e hpath hs ih =>
    have hinv := ih fun x hx => htoml x (List.mem_cons_of_mem _ hx)
    have hsteps := steps_of_step hs
    generalize hoperation : operation (s, e) = operation? at hsteps
    cases hsteps with
    | start env hidle =>
      refine hinv.frame hoperation rfl (fun _ => id) fun p hp => ?_
      obtain rfl := Option.some.inj hp
      show Stage.Ok _ _ (if _ then _ else _)
      split
      · assumption
      · trivial
    | act hp hact hprocess =>
      exact hinv.act hurls hp hoperation hact hprocess (htoml _ List.mem_cons_self _ hoperation)
    | kill => exact hinv.frame hoperation rfl (fun _ => id) fun p hp => (by cases hp)
    | set env name value outcome =>
      exact hinv.frame hoperation rfl (fun _ hkept => hkept.setNonempty env name value outcome) hinv.stage

/-- The next start, with backends that answer and a rooms.toml that loads, gets as far as the bot. -/
theorem Inv.starts {settings : BTreeMap Int RoomSettings}
    {rooms : Option (Except Atomic.IoError (List UInt8))}
    (hinv : Inv toml parse h s) (hsome : s.disk.configToml.isSome = true) (hidle : s.idle = true)
    (henv : env (envVarName telegramBotToken) = none) (hrooms : loadSettings toml rooms = .ok settings) :
    ∃ config token, (setup toml parse).run s [.start env, .act (.load (.ok ())), .act (.new {} rooms)] =
      some ⟨s.disk, some ⟨env, .running config token⟩⟩ := by
  obtain ⟨bytes, hbytes⟩ := Option.isSome_iff_exists.mp hsome
  obtain ⟨config, hload⟩ := hinv.config bytes hbytes
  obtain ⟨token, htoken, -⟩ := (hinv.origin hsome).1.get henv
  have hread : FirstRun.act toml parse env s.disk .load (.load (.ok ())) = some (s.disk, .new config) := by
    simp only [FirstRun.act, Except.bind, hbytes, Option.elim, hload]
  have hnew : FirstRun.act toml parse env s.disk (.new config) (.new {} rooms) =
      some (s.disk, .running config token) := by
    simp only [FirstRun.act, started, htoken, hrooms]
  refine ⟨config, token, ?_⟩
  simp only [Sys.run, setup, hidle, if_true, Option.bind_some, Machine.start, hsome, hread, hnew,
    Option.map_some]

/-- What a maintainer is promised of the first run. -/
structure SetUp (toml : Toml) (parse : UrlParser) (h : SetupRun) (s : Machine) : Prop where
  /-- No `expect` fires. -/
  noPanic : ∀ p, s.process = some p → p.stage ≠ .panicked
  /-- There is a `config.toml` once a setup has published one, and not before. -/
  marked : s.disk.configToml.isSome = true ↔ ∃ x ∈ h, ∃ preset, Publishes preset x
  /-- From then on the token and the key of the provider can be read. -/
  readable : ∀ x ∈ h, ∀ preset, Publishes preset x → ∀ name ∈ [telegramBotToken, preset.apiKeySecret],
    ∀ env, env (envVarName name) = none →
      ∃ value, Secrets.get env {} name s.disk.secrets = some value ∧ trim value.toList ≠ []
  /-- And the next start gets as far as the bot. -/
  starts : s.disk.configToml.isSome = true → s.idle = true → ∀ env rooms settings,
    env (envVarName telegramBotToken) = none → loadSettings toml rooms = .ok settings →
      ∃ config token, (setup toml parse).run s [.start env, .act (.load (.ok ())), .act (.new {} rooms)] =
        some ⟨s.disk, some ⟨env, .running config token⟩⟩
  /-- The token that a setup stores is one that Telegram has confirmed before. -/
  confirmed : ∀ newer x older token, h = newer ++ x :: older → StoresToken token x → Confirmed older token

/-- **A `config.toml` means that the setup is complete**, in every run in which no two calls of `set` overlap
    and one tellm runs at a time: whatever input ends, whatever backend, request or write fails, wherever the
    process is killed, and whichever secrets others store in between. -/
theorem setup_complete (hurls : PresetUrls parse) {store : Store}
    (hpath : Path (setup toml parse) (fresh store) h s)
    (htoml : ∀ x ∈ h, ∀ y, operation x = some y → ∀ config, written y = some config →
      toml.RoundTrips (Config.codec.encode config)) : SetUp toml parse h s := by
  have hinv := inv_run hurls hpath htoml
  refine ⟨?_, ?_, ?_, ?_, ?_⟩
  · intro p hp hpanicked
    have hok := hinv.stage p hp
    rw [hpanicked] at hok
    exact hok
  · constructor
    · exact fun hsome => (hinv.origin hsome).2
    · rintro ⟨x, hx, preset, hpublishes⟩
      exact (hinv.published x hx preset hpublishes).1
  · intro x hx preset hpublishes name hname env henv
    obtain ⟨hsome, hkey⟩ := hinv.published x hx preset hpublishes
    rcases List.mem_cons.mp hname with rfl | hname
    · exact (hinv.origin hsome).1.get henv
    · obtain rfl := List.mem_singleton.mp hname
      exact hkey.get henv
  · intro hsome hidle env rooms settings henv hrooms
    exact hinv.starts hsome hidle henv hrooms
  · rintro newer x older token rfl ⟨key, preset, outcome, hstores⟩
    obtain ⟨m, hold, -, -⟩ := Path.cut hpath
    have hbefore := inv_run hurls hold fun y hy =>
      htoml y (List.mem_append_right _ (List.mem_cons_of_mem _ hy))
    obtain ⟨p, hp, hstage⟩ := process_of_operation hstores
    have hok := hbefore.stage p hp
    rw [hstage] at hok
    exact hok.2.1

/-! The first attempt is killed while it stores the key of the provider, the second goes through, with no
    keychain and a blank line, until somebody closes its terminal; then the key is rotated. -/

/-- The preset that the first choice gives. -/
def claude : ProviderPreset :=
  ⟨"anthropic", "Anthropic Claude Opus 5", .anthropic, "claude-opus-5", none, "anthropic_api_key"⟩

/-- The config.toml of that preset, as the crate may write it. -/
def claudeText : String :=
  "default_model = \"anthropic\"\n\n[models.anthropic]\nwire_format = \"anthropic\"\n" ++
  "model_name = \"claude-opus-5\"\napi_key_secret = \"anthropic_api_key\"\ntelegram_chat_ids = []\n" ++
  "thinking = \"medium\"\n\n[telegram]\nallowed_chat_ids = []\nowner_user_ids = []\n"

/-- A toml crate that knows this config and an empty rooms.toml. -/
def claudeToml : Toml :=
  tomlOf hasRooms ("[rooms]\n", RoomsToml.codec.encode (roomsToml ∅))
    (claudeText, Config.codec.encode (configForPreset claude))

/-- The answers up to the key of the provider. -/
def dialogue (lines : List String) : List Event :=
  (lines.map fun line => .act (.line (.ok (some line.toList)))) ++
    [.act (.getMe (.ok ⟨7, true, "tellm", none⟩)), .act (.line (.ok (some ['\n']))),
      .act (.line (.ok (some "sk-1\n".toList)))]

/-- The whole run. -/
def twoAttempts : List Event :=
  [.start noOverrides] ++ dialogue ["7:abc\n"] ++ [.act (.store {}), .kill (some (.store {}))] ++
    [.start noOverrides] ++ dialogue [" \n", "7:abc\n"] ++
    [.act (.store { keychainSet := false }), .act (.store { keychainSet := false }), .act (.save (.ok ())),
      .kill none, .set noOverrides "anthropic_api_key" "sk-2".toList {}]

/-- A run of the wizard with the preset for Claude that goes through to the end. -/
theorem setup_complete_claude : ∃ h s, Path (setup claudeToml parsePresetUrl) (fresh ⟨∅, ∅⟩) h s ∧
    s.disk.configToml.isSome = true ∧ SetUp claudeToml parsePresetUrl h s := by
  have hrun : ((setup claudeToml parsePresetUrl).trace (fresh ⟨∅, ∅⟩) twoAttempts).any (fun r =>
      r.2.disk.configToml.isSome && r.1.all fun x => (operation x).all fun y =>
        (written y).all fun config => config == configForPreset claude) = true := by decide
  obtain ⟨h, s, hpath, hend⟩ := Sys.path_of_trace_any _ hrun
  rw [Bool.and_eq_true, List.all_eq_true] at hend
  refine ⟨h, s, hpath, hend.1, setup_complete presetUrls_parsePresetUrl hpath ?_⟩
  intro x hx y hy config hconfig
  have honly := hend.2 x hx
  rw [hy, Option.all_some, hconfig] at honly
  obtain rfl := eq_of_beq honly
  exact roundTrips_tomlOf_second rfl rfl (by decide) rfl

end FirstRun

end Tellm
