/-
  The SECRET STORE: `tellm_config::secrets`, two backends behind one `get` and one `set`.

  A secret lies in the OS keychain or in `credentials.toml`.  The keychain comes first, unless the file
  holds a MARKER entry for the name; the marker is an entry of the same file, under a reserved name.
  Any backend may fail at any call, so the model takes what each of them answers as an input.

  1. **The backends and `get` / `set`**, as the source writes them, over a `Store` of both backends.
  2. **`SetEffect`**: the four things a call of `set` can do.  Everything below is derived from it.
  3. **Read your writes** (`read_your_writes`): with working reads the store is a plain register for each
     name, whatever fails in `set`.
  4. **Unreadable backends**: what a set that returned `Ok` leaves behind (`Settled`), and exactly when
     `get` may bring back a superseded credential (`get_superseded_iff`).

  A call of `set` tries the keychain first.  If that works, the file's entry and its marker are removed;
  if it does not, the value goes to the file, with the marker, so that it outranks whatever the keychain
  still has.  Each of these may fail in turn, and `SetEffect` lists what can be left behind: nothing
  changed; the keychain alone; the keychain, with an error because the file could not be cleaned up; the
  file with its marker.

  An environment variable overrides everything, and a reserved name is refused; both are in `get` and
  `set` as in the source.

  The two results divide by what `get` can read.  With both reads working there is one current value per
  name.  With a read failing, the other backend answers, and whether that may be an OLD value depends on
  what the calls of `set` have left in the keychain (`LeftBehind`), which is said by the calls: which of
  them went to the keychain, and what was there before.
-/
import Tellm.Lib.Runs
import Tellm.Config

namespace Tellm

open Runs

namespace Secrets

/-- `FILE_PREFERENCE_PREFIX`. -/
def filePreferencePrefix : String := "__tellm_prefer_credentials_file__:"

/-- `SecretError`: which backend has failed, and what is in order of the others. -/
inductive SecretError
  | io (error : String)
  | parse (error : String)
  | serialize (error : String)
  | noConfigDir
  | environmentOverride (name variableName : String)
  | reservedName (name : String)
  | fallbackCleanup (name : String) (source : SecretError)
  deriving DecidableEq

/-- `SecretDestination`: where a secret has gone. -/
inductive SecretDestination
  | osKeychain
  | credentialsFile
  deriving DecidableEq

/-- The process environment, as `std::env::var_os` shows it: a variable may be set to something that is
    not UTF-8 (`some none`). -/
abbrev Environment := String → Option (Option String)

/-- What the two backends hold. -/
structure Store where
  keychain : BTreeMap String String
  credentials : BTreeMap String String

/-- How the reads of one `get` turn out. -/
structure Reads where
  keychainRead : Except String Unit := .ok ()
  fileRead : Except SecretError Unit := .ok ()
  deriving DecidableEq

/-- How the backend operations of one `set` turn out; those it does not reach do not matter. -/
structure Outcome extends Reads where
  keychainSet : Bool := true
  fileWrite : Except SecretError Unit := .ok ()
  deriving DecidableEq

/-- `set(name, value)`, with how its backend operations turn out. -/
structure SetCall where
  name : String
  value : String
  outcome : Outcome := {}
  deriving DecidableEq

/-! ## Names -/

/-- A name in the space of the preference markers, which nobody may set. -/
def isReservedName (name : String) : Bool :=
  filePreferencePrefix.toList.isPrefixOf name.toList

/-- The marker of a name: its entry in the file outranks the keychain's. -/
def filePreferenceKey (name : String) : String := filePreferencePrefix ++ name

/-- `char::is_ascii_alphanumeric`. -/
def isAsciiAlphanumeric (ch : Char) : Bool := ch.isAlphanum

/-- `env_var_name`: the variable that overrides the stored secret.  Two names may share one. -/
def envVarName (name : String) : String :=
  "TELLM_" ++ String.ofList (name.toList.map fun ch => if isAsciiAlphanumeric ch then ch.toUpper else '_')

theorem isReservedName_filePreferenceKey (name : String) :
    isReservedName (filePreferenceKey name) = true := by
  rw [isReservedName, filePreferenceKey, String.toList_append, List.isPrefixOf_iff_prefix]
  exact List.prefix_append _ _

theorem filePreferenceKey_inj {a b : String} : filePreferenceKey a = filePreferenceKey b ↔ a = b := by
  constructor
  · intro h
    have h := congrArg String.toList h
    rw [filePreferenceKey, filePreferenceKey, String.toList_append, String.toList_append] at h
    exact String.toList_inj.mp (List.append_cancel_left h)
  · rintro rfl
    rfl

/-- A marker never collides with a secret. -/
theorem filePreferenceKey_ne {a b : String} (h : isReservedName b = false) :
    filePreferenceKey a ≠ b := by
  rintro rfl
  rw [isReservedName_filePreferenceKey] at h
  cases h

/-! ## The backends -/

/-- A read of the keychain that goes well, or fails whatever the entry is. -/
def keychainRead (result : Except String Unit) (name : String) (store : Store) :
    Except String (Option String) :=
  result.map fun _ => store.keychain[name]?

/-- `keychain_get`: a read that fails counts as no entry. -/
def keychainGet (result : Except String Unit) (name : String) (store : Store) : Option String :=
  (keychainRead result name store).toOption.join

/-- `keychain_set`, and whether it went well. -/
def keychainSet (works : Bool) (name value : String) (store : Store) : Bool × Store :=
  if works then (true, { store with keychain := store.keychain.insert name value }) else (false, store)

/-- `read_file_secrets`: all of the file, its markers included. -/
def readFileSecrets (result : Except SecretError Unit) (store : Store) :
    Except SecretError (BTreeMap String String) :=
  result.map fun _ => store.credentials

/-- `write_file_secrets`: the whole file is written anew, or stays as it is. -/
def writeFileSecrets (result : Except SecretError Unit) (secrets : BTreeMap String String)
    (store : Store) : Except SecretError Unit × Store :=
  match result with
  | .ok () => (.ok (), { store with credentials := secrets })
  | .error error => (.error error, store)

/-- `file_set`: the entry and its marker go into the file together. -/
def fileSet (outcome : Outcome) (name value : String) (store : Store) :
    Except SecretError Unit × Store :=
  match readFileSecrets outcome.fileRead store with
  | .error error => (.error error, store)
  | .ok secrets =>
    writeFileSecrets outcome.fileWrite
      ((secrets.insert name value).insert (filePreferenceKey name) "true") store

/-- `file_remove`: the entry and its marker go; a file without them is not written. -/
def fileRemove (outcome : Outcome) (name : String) (store : Store) :
    Except SecretError Unit × Store :=
  match readFileSecrets outcome.fileRead store with
  | .error error => (.error error, store)
  | .ok secrets =>
    let removedValue := secrets.contains name
    let secrets := secrets.erase name
    let removedPreference := secrets.contains (filePreferenceKey name)
    let secrets := secrets.erase (filePreferenceKey name)
    if removedValue || removedPreference then writeFileSecrets outcome.fileWrite secrets store
    else (.ok (), store)

/-! ## `get` and `set` -/

/-- `persisted_secret`: with the marker only the file counts, without it the keychain comes first. -/
def persistedSecret (name : String) (fileSecrets : Option (BTreeMap String String))
    (keychainGet : Option String) : Option String :=
  let fileValue := fileSecrets.bind fun secrets => secrets[name]?
  let preferFile := fileSecrets.any fun secrets => secrets.contains (filePreferenceKey name)
  if preferFile then fileValue else keychainGet.or fileValue

/-- `secrets::get`: the environment first, then what is stored.  An error of the file is logged and counts as
    an empty file. -/
def get (env : Environment) (reads : Reads) (name : String) (store : Store) : Option String :=
  if isReservedName name then none
  else
    match env (envVarName name) with
    | some value => value
    | none =>
      persistedSecret name (readFileSecrets reads.fileRead store).toOption
        (keychainGet reads.keychainRead name store)

/-- What follows a write to the keychain: an older entry of the file must go, or the set fails. -/
def finishKeychainWrite (outcome : Outcome) (name : String) (store : Store) :
    Except SecretError SecretDestination × Store :=
  match fileRemove outcome name store with
  | (.error source, store) => (.error (.fallbackCleanup name source), store)
  | (.ok (), store) => (.ok .osKeychain, store)

/-- `set_with_backends`: the keychain, and where it fails the file with a marker. -/
def setWithBackends (outcome : Outcome) (name value : String) (store : Store) :
    Except SecretError SecretDestination × Store :=
  match keychainSet outcome.keychainSet name value store with
  | (true, store) => finishKeychainWrite outcome name store
  | (false, store) =>
    if (keychainRead outcome.keychainRead name store).toOption.join = some value then
      finishKeychainWrite outcome name store
    else
      match fileSet outcome name value store with
      | (.error error, store) => (.error error, store)
      | (.ok (), store) => (.ok .credentialsFile, store)

/-- `secrets::set`: a name that is reserved or overridden by the environment is refused before any backend is
    touched. -/
def set (env : Environment) (call : SetCall) (store : Store) :
    Except SecretError SecretDestination × Store :=
  if isReservedName call.name then (.error (.reservedName call.name), store)
  else if (env (envVarName call.name)).isSome then
    (.error (.environmentOverride call.name (envVarName call.name)), store)
  else setWithBackends call.outcome call.name call.value store

/-! ## What a call of `set` can do -/

/-- The four effects of `set(name, value)`. -/
inductive SetEffect (name value : String) (store : Store) :
    Except SecretError SecretDestination → Store → Prop
  | refused (error : SecretError) : SetEffect name value store (.error error) store
  | toKeychain : SetEffect name value store (.ok .osKeychain)
      ⟨store.keychain.insert name value,
        (store.credentials.erase name).erase (filePreferenceKey name)⟩
  | keptFallback (source : SecretError) :
      SetEffect name value store (.error (.fallbackCleanup name source))
        { store with keychain := store.keychain.insert name value }
  | toFile : SetEffect name value store (.ok .credentialsFile)
      ⟨store.keychain, (store.credentials.insert name value).insert (filePreferenceKey name) "true"⟩

/-- Writing what a map holds already. -/
theorem insert_of_getElem? {map : BTreeMap String String} {name value : String}
    (h : map[name]? = some value) : map.insert name value = map := by
  refine Std.ExtTreeMap.ext_getElem? fun key => ?_
  rw [Std.ExtTreeMap.getElem?_insert]
  split
  · rename_i hk
    rw [← compare_eq_iff_eq.mp hk, h]
  · rfl

theorem erase_of_not_contains {map : BTreeMap String String} {name : String}
    (h : map.contains name = false) : map.erase name = map := by
  refine Std.ExtTreeMap.ext_getElem? fun key => ?_
  rw [Std.ExtTreeMap.getElem?_erase]
  split
  · rename_i hk
    rw [← compare_eq_iff_eq.mp hk]
    exact (Std.ExtTreeMap.getElem?_eq_none_of_contains_eq_false h).symm
  · rfl

/-- What `file_remove` can do: fail and leave the file, or remove value and marker. -/
theorem fileRemove_cases (outcome : Outcome) (name : String) (store : Store) :
    (∃ error, fileRemove outcome name store = (.error error, store)) ∨
    fileRemove outcome name store = (.ok (),
      ⟨store.keychain, (store.credentials.erase name).erase (filePreferenceKey name)⟩) := by
  unfold fileRemove readFileSecrets
  cases outcome.fileRead with
  | error error => exact Or.inl ⟨error, rfl⟩
  | ok u =>
    simp only [Except.map]
    split
    · unfold writeFileSecrets
      cases outcome.fileWrite with
      | error error => exact Or.inl ⟨error, rfl⟩
      | ok u => exact Or.inr rfl
    · rename_i hnone
      rw [Bool.or_eq_true, not_or, Bool.not_eq_true, Bool.not_eq_true] at hnone
      right
      rw [erase_of_not_contains hnone.2, erase_of_not_contains hnone.1]

theorem fileSet_cases (outcome : Outcome) (name value : String) (store : Store) :
    (∃ error, fileSet outcome name value store = (.error error, store)) ∨
    fileSet outcome name value store = (.ok (),
      ⟨store.keychain, (store.credentials.insert name value).insert (filePreferenceKey name) "true"⟩) := by
  unfold fileSet readFileSecrets writeFileSecrets
  cases outcome.fileRead with
  | error error => exact Or.inl ⟨error, rfl⟩
  | ok u =>
    cases outcome.fileWrite with
    | error error => exact Or.inl ⟨error, rfl⟩
    | ok u => exact Or.inr rfl

theorem keychainRead_eq_some {result : Except String Unit} {name value : String} {store : Store}
    (h : (keychainRead result name store).toOption.join = some value) :
    store.keychain[name]? = some value := by
  cases result with
  | error error => cases h
  | ok u => exact h

/-- Once the keychain holds the value, what is left is to remove the fallback. -/
theorem finishKeychainWrite_effect (outcome : Outcome) (name value : String) (store : Store) :
    SetEffect name value store
      (finishKeychainWrite outcome name { store with keychain := store.keychain.insert name value }).1
      (finishKeychainWrite outcome name
        { store with keychain := store.keychain.insert name value }).2 := by
  unfold finishKeychainWrite
  rcases fileRemove_cases outcome name { store with keychain := store.keychain.insert name value }
    with ⟨error, h⟩ | h
  · rw [h]
    exact .keptFallback error
  · rw [h]
    exact .toKeychain

theorem setWithBackends_effect (outcome : Outcome) (name value : String) (store : Store) :
    SetEffect name value store (setWithBackends outcome name value store).1
      (setWithBackends outcome name value store).2 := by
  unfold setWithBackends keychainSet
  cases outcome.keychainSet with
  | true => exact finishKeychainWrite_effect outcome name value store
  | false =>
    simp only [Bool.false_eq_true, if_false]
    split
    · rename_i hread
      -- The write failed, but the keychain holds the value already: as if it had been written.
      have hsame : { store with keychain := store.keychain.insert name value } = store := by
        rw [insert_of_getElem? (keychainRead_eq_some hread)]
      have heffect := finishKeychainWrite_effect outcome name value store
      rw [hsame] at heffect
      exact heffect
    · rcases fileSet_cases outcome name value store with ⟨error, h⟩ | h
      · rw [h]
        exact .refused error
      · rw [h]
        exact .toFile

/-- **`set` by cases**: it refuses the name and does nothing, or has one of the four effects on a name
    that is neither reserved nor overridden. -/
theorem set_cases (env : Environment) (call : SetCall) (store : Store) :
    (∃ error, set env call store = (.error error, store)) ∨
    (isReservedName call.name = false ∧ env (envVarName call.name) = none ∧
      SetEffect call.name call.value store (set env call store).1 (set env call store).2) := by
  unfold set
  split
  · exact Or.inl ⟨_, rfl⟩
  · rename_i hreserved
    split
    · exact Or.inl ⟨_, rfl⟩
    · rename_i henv
      refine Or.inr ⟨Bool.eq_false_iff.mpr hreserved, ?_, setWithBackends_effect _ _ _ _⟩
      exact Option.not_isSome_iff_eq_none.mp henv

/-! ## Frame -/

variable {env : Environment} {name value : String} {store store' : Store}

/-- `get` of a name looks at three places only. -/
theorem get_congr (reads : Reads) (hkeychain : store'.keychain[name]? = store.keychain[name]?)
    (hvalue : store'.credentials[name]? = store.credentials[name]?)
    (hmarker : store'.credentials.contains (filePreferenceKey name) =
      store.credentials.contains (filePreferenceKey name)) :
    get env reads name store' = get env reads name store := by
  unfold get persistedSecret keychainGet keychainRead readFileSecrets
  cases reads.keychainRead <;> cases reads.fileRead <;>
    simp [Except.map, Except.toOption, hkeychain, hvalue, hmarker]

theorem compare_ne {a b : String} (h : a ≠ b) : ¬ compare a b = .eq :=
  fun hc => h (compare_eq_iff_eq.mp hc)

theorem contains_insert_of_ne {map : BTreeMap String String} {a b : String} (h : a ≠ b) :
    (map.insert a value).contains b = map.contains b := by
  rw [Std.ExtTreeMap.contains_insert, beq_eq_false_iff_ne.mpr (compare_ne h), Bool.false_or]

theorem contains_erase_of_ne {map : BTreeMap String String} {a b : String} (h : a ≠ b) :
    (map.erase a).contains b = map.contains b := by
  rw [Std.ExtTreeMap.contains_erase, bne, beq_eq_false_iff_ne.mpr (compare_ne h), Bool.not_false,
    Bool.true_and]

/-- A call leaves the three places of every other name alone. -/
theorem SetEffect.frame {result : Except SecretError SecretDestination}
    (h : SetEffect name value store result store') (hname : isReservedName name = false)
    {other : String} (hother : isReservedName other = false) (hne : name ≠ other) :
    store'.keychain[other]? = store.keychain[other]? ∧
    store'.credentials[other]? = store.credentials[other]? ∧
    store'.credentials.contains (filePreferenceKey other) =
      store.credentials.contains (filePreferenceKey other) := by
  have h1 : filePreferenceKey name ≠ other := filePreferenceKey_ne hother
  have h2 : name ≠ filePreferenceKey other := (filePreferenceKey_ne hname).symm
  have h3 : filePreferenceKey name ≠ filePreferenceKey other := mt filePreferenceKey_inj.mp hne
  cases h with
  | refused error => exact ⟨rfl, rfl, rfl⟩
  | toKeychain =>
    refine ⟨?_, ?_, ?_⟩
    · rw [Std.ExtTreeMap.getElem?_insert, if_neg (compare_ne hne)]
    · rw [Std.ExtTreeMap.getElem?_erase, if_neg (compare_ne h1), Std.ExtTreeMap.getElem?_erase,
        if_neg (compare_ne hne)]
    · rw [contains_erase_of_ne h3, contains_erase_of_ne h2]
  | keptFallback source =>
    refine ⟨?_, rfl, rfl⟩
    rw [Std.ExtTreeMap.getElem?_insert, if_neg (compare_ne hne)]
  | toFile =>
    refine ⟨rfl, ?_, ?_⟩
    · rw [Std.ExtTreeMap.getElem?_insert, if_neg (compare_ne h1), Std.ExtTreeMap.getElem?_insert,
        if_neg (compare_ne hne)]
    · rw [contains_insert_of_ne h3, contains_insert_of_ne h2]

theorem get_of_reserved (reads : Reads) (h : isReservedName name = true) :
    get env reads name store = none := by
  rw [get, if_pos h]

/-- **Frame**: a set never changes what `get` of another name returns, however its reads turn out. -/
theorem get_set_of_ne (call : SetCall) (reads : Reads) {other : String} (hne : call.name ≠ other) :
    get env reads other (set env call store).2 = get env reads other store := by
  cases hother : isReservedName other with
  | true => rw [get_of_reserved reads hother, get_of_reserved reads hother]
  | false =>
    rcases set_cases env call store with ⟨error, h⟩ | ⟨hname, -, heffect⟩
    · rw [h]
    · obtain ⟨hk, hv, hm⟩ := heffect.frame hname hother hne
      exact get_congr reads hk hv hm

/-! ## Read your writes -/

/-- `get` of a name that nothing overrides. -/
theorem get_eq_persistedSecret (reads : Reads) (hname : isReservedName name = false)
    (henv : env (envVarName name) = none) :
    get env reads name store =
      persistedSecret name (readFileSecrets reads.fileRead store).toOption
        (keychainGet reads.keychainRead name store) := by
  unfold get
  rw [hname, henv]
  rfl

/-- With working reads: the file's value under a marker, else the keychain's or the file's. -/
theorem get_readable (hname : isReservedName name = false) (henv : env (envVarName name) = none) :
    get env {} name store =
      if store.credentials.contains (filePreferenceKey name) then store.credentials[name]?
      else store.keychain[name]?.or store.credentials[name]? := by
  rw [get_eq_persistedSecret _ hname henv]
  rfl

/-- What `get` of the name finds after each effect, with working reads. -/
theorem SetEffect.get {result : Except SecretError SecretDestination}
    (h : SetEffect name value store result store') (hname : isReservedName name = false)
    (henv : env (envVarName name) = none) :
    (result.isOk = true → Secrets.get env {} name store' = some value) ∧
    (Secrets.get env {} name store' = Secrets.get env {} name store ∨
      Secrets.get env {} name store' = some value) := by
  have hmarker : filePreferenceKey name ≠ name := filePreferenceKey_ne hname
  cases h with
  | refused error => exact ⟨by simp [Except.isOk, Except.toBool], Or.inl rfl⟩
  | toKeychain =>
    have hget : Secrets.get env {} name ⟨store.keychain.insert name value,
        (store.credentials.erase name).erase (filePreferenceKey name)⟩ = some value := by
      rw [get_readable hname henv]
      simp
    exact ⟨fun _ => hget, Or.inr hget⟩
  | keptFallback source =>
    refine ⟨by simp [Except.isOk, Except.toBool], ?_⟩
    rw [get_readable hname henv, get_readable hname henv]
    -- Under a marker the file still answers; without one the keychain now does.
    cases store.credentials.contains (filePreferenceKey name) with
    | true => exact Or.inl rfl
    | false => exact Or.inr (by simp)
  | toFile =>
    have hget : Secrets.get env {} name ⟨store.keychain,
        (store.credentials.insert name value).insert (filePreferenceKey name) "true"⟩ = some value := by
      rw [get_readable hname henv, Std.ExtTreeMap.contains_insert_self, if_pos rfl,
        Std.ExtTreeMap.getElem?_insert, if_neg (compare_ne hmarker),
        Std.ExtTreeMap.getElem?_insert_self]
    exact ⟨fun _ => hget, Or.inr hget⟩

/-- A call that returned `Ok` is read back. -/
theorem get_set_of_ok {call : SetCall} (hok : (set env call store).1.isOk = true) :
    get env {} call.name (set env call store).2 = some call.value := by
  rcases set_cases env call store with ⟨error, h⟩ | ⟨hname, henv, heffect⟩
  · rw [h] at hok
    cases hok
  · exact (heffect.get hname henv).1 hok

/-- Whatever a call returned, `get` finds what it found before or the call's value. -/
theorem get_set_or (call : SetCall) :
    get env {} call.name (set env call store).2 = get env {} call.name store ∨
      get env {} call.name (set env call store).2 = some call.value := by
  rcases set_cases env call store with ⟨error, h⟩ | ⟨hname, henv, heffect⟩
  · rw [h]
    exact Or.inl rfl
  · exact (heffect.get hname henv).2

/-! ## Histories of calls -/

/-- Calls of `set` one after the other, from any contents of the backends. -/
def secretSys (env : Environment) : Sys Store SetCall where
  step store call := some (set env call store).2

/-- The calls of `set`, newest first, each with what was stored before it. -/
abbrev SecretHistory := List (Store × SetCall)

/-- The call returned `Ok`. -/
def ReturnedOk (env : Environment) (y : Store × SetCall) : Prop := (set env y.2 y.1).1.isOk = true

instance (env : Environment) (y : Store × SetCall) : Decidable (ReturnedOk env y) :=
  inferInstanceAs (Decidable (_ = true))

/-- What a caller may rely on while the reads work. -/
structure ReadYourWrites (env : Environment) (h : SecretHistory) (store : Store) : Prop where
  written : ∀ name value, Since (fun y => y.2.name ≠ name)
      (fun y => y.2.name = name ∧ y.2.value = value ∧ ReturnedOk env y) h →
    get env {} name store = some value
  others : ∀ call other, call.name ≠ other →
    get env {} other (set env call store).2 = get env {} other store
  failed : ∀ call, ¬ ReturnedOk env (store, call) →
    get env {} call.name (set env call store).2 = get env {} call.name store ∨
      get env {} call.name (set env call store).2 = some call.value

/-- **Read your writes**, whatever fails inside `set` and whatever the backends held at the start. -/
theorem read_your_writes {store₀ : Store} {h : SecretHistory}
    (p : Path (secretSys env) store₀ h store) : ReadYourWrites env h store := by
  refine ⟨?_, fun call other hne => get_set_of_ne call {} hne, fun call _ => get_set_or call⟩
  intro name value hsince
  induction p with
  | start =>
    obtain ⟨x, hx, -⟩ := hsince.exists_mem
    cases hx
  | step p hstep ih =>
    cases hstep
    rcases since_cons.mp hsince with ⟨rfl, rfl, hok⟩ | ⟨hne, hsince⟩
    · exact get_set_of_ok hok
    · rw [get_set_of_ne _ _ hne]
      exact ih hsince

/-- A rotation that the locked keychain sends to the file is read back, with the old value still in the
    keychain. -/
theorem read_your_writes_rotation :
    let store : Store := ⟨(∅ : BTreeMap String String).insert "openai_api_key" "old", ∅⟩
    let call : SetCall := ⟨"openai_api_key", "new", { keychainSet := false, keychainRead := .error "locked" }⟩
    let after := set (fun _ => none) call store
    after.1 = .ok .credentialsFile ∧ after.2.keychain["openai_api_key"]? = some "old" ∧
      get (fun _ => none) {} "openai_api_key" after.2 = some "new" ∧
      ReadYourWrites (fun _ => none) [(store, call)] after.2 := by
  refine ⟨rfl, rfl, ?_, read_your_writes (.step .start rfl)⟩
  exact (read_your_writes (.step .start rfl)).written "openai_api_key" "new"
    (since_cons.mpr (Or.inl ⟨rfl, rfl, rfl⟩))

/-! ## Unreadable backends -/

/-- The values passed to the most recent set of the name that returned `Ok`, and to those since; `none`
    while none has. -/
def currentValues (env : Environment) (name : String) : SecretHistory → Option (List String)
  | [] => none
  | y :: h =>
    if y.2.name = name then
      if ReturnedOk env y then some [y.2.value]
      else (currentValues env name h).map (y.2.value :: ·)
    else currentValues env name h

/-- An answer for the name that no set which returned `Ok` has superseded. -/
def NotSuperseded (env : Environment) (name : String) (h : SecretHistory) (answer : Option String) :
    Prop :=
  ∀ values, currentValues env name h = some values → ∀ v, answer = some v → v ∈ values

/-- What a set that returned `Ok` leaves behind: either its marker and a value in the file, or a value
    in the keychain and nothing in the file. -/
def Settled (name : String) (values : List String) (store : Store) : Prop :=
  (store.credentials.contains (filePreferenceKey name) = true ∧
    ∃ v ∈ values, store.credentials[name]? = some v) ∨
  (store.credentials.contains (filePreferenceKey name) = false ∧
    store.credentials[name]? = none ∧ ∃ v ∈ values, store.keychain[name]? = some v)

/-- A call of the name that returned `Ok` settles it. -/
theorem SetEffect.settled_of_ok {result : Except SecretError SecretDestination}
    (h : SetEffect name value store result store') (hname : isReservedName name = false)
    (hok : result.isOk = true) : Settled name [value] store' := by
  have hmarker : filePreferenceKey name ≠ name := filePreferenceKey_ne hname
  cases h with
  | refused error => cases hok
  | toKeychain =>
    refine Or.inr ⟨by simp, ?_, value, List.mem_singleton_self _, Std.ExtTreeMap.getElem?_insert_self⟩
    rw [Std.ExtTreeMap.getElem?_erase, if_neg (compare_ne hmarker), Std.ExtTreeMap.getElem?_erase_self]
  | keptFallback source => cases hok
  | toFile =>
    refine Or.inl ⟨Std.ExtTreeMap.contains_insert_self, value, List.mem_singleton_self _, ?_⟩
    rw [Std.ExtTreeMap.getElem?_insert, if_neg (compare_ne hmarker), Std.ExtTreeMap.getElem?_insert_self]

/-- A call of the name that failed keeps it settled, its value now among the possible ones. -/
theorem SetEffect.settled_of_error {result : Except SecretError SecretDestination}
    (h : SetEffect name value store result store') (hok : ¬ result.isOk = true) {values : List String}
    (hs : Settled name values store) : Settled name (value :: values) store' := by
  cases h with
  | refused error =>
    rcases hs with ⟨hm, v, hv, hf⟩ | ⟨hm, hn, v, hv, hk⟩
    · exact Or.inl ⟨hm, v, List.mem_cons_of_mem _ hv, hf⟩
    · exact Or.inr ⟨hm, hn, v, List.mem_cons_of_mem _ hv, hk⟩
  | toKeychain => exact absurd rfl hok
  | keptFallback source =>
    rcases hs with ⟨hm, v, hv, hf⟩ | ⟨hm, hn, -, -, -⟩
    · exact Or.inl ⟨hm, v, List.mem_cons_of_mem _ hv, hf⟩
    · exact Or.inr ⟨hm, hn, value, List.mem_cons_self, Std.ExtTreeMap.getElem?_insert_self⟩
  | toFile => exact absurd rfl hok

/-- Once a set of the name has returned `Ok`, the name is settled, and `get` looks it up. -/
theorem settled_run {store₀ : Store} {h : SecretHistory} (p : Path (secretSys env) store₀ h store)
    (name : String) : ∀ values, currentValues env name h = some values →
      isReservedName name = false ∧ env (envVarName name) = none ∧ Settled name values store := by
  induction p with
  | start =>
    intro values hvalues
    cases hvalues
  | @step h s s' call p hstep ih =>
    cases hstep
    intro values hvalues
    rw [currentValues] at hvalues
    -- only a call for the name itself moves what its readers see
    by_cases hcall : call.name = name
    · subst hcall
      rw [if_pos rfl] at hvalues
      rcases set_cases env call s with ⟨error, hset⟩ | ⟨hname, henv, heffect⟩
      · have hno : ¬ ReturnedOk env (s, call) := by simp [ReturnedOk, hset, Except.isOk, Except.toBool]
        rw [if_neg hno] at hvalues
        obtain ⟨values', hvalues', rfl⟩ := Option.map_eq_some_iff.mp hvalues
        obtain ⟨hname, henv, hs⟩ := ih values' hvalues'
        have hrefused : SetEffect call.name call.value s (.error error) s := .refused error
        refine ⟨hname, henv, ?_⟩
        rw [hset]
        exact hrefused.settled_of_error (by simp [Except.isOk, Except.toBool]) hs
      · refine ⟨hname, henv, ?_⟩
        by_cases hok : ReturnedOk env (s, call)
        · rw [if_pos hok] at hvalues
          cases hvalues
          exact heffect.settled_of_ok hname hok
        · rw [if_neg hok] at hvalues
          obtain ⟨values', hvalues', rfl⟩ := Option.map_eq_some_iff.mp hvalues
          exact heffect.settled_of_error hok (ih values' hvalues').2.2
    · rw [if_neg hcall] at hvalues
      obtain ⟨hname, henv, hs⟩ := ih values hvalues
      refine ⟨hname, henv, ?_⟩
      rcases set_cases env call s with ⟨error, hset⟩ | ⟨hcallname, -, heffect⟩
      · rw [hset]
        exact hs
      · obtain ⟨hk, hv, hm⟩ := heffect.frame hcallname hname hcall
        rw [Settled, hk, hv, hm]
        exact hs

/-- A settled name whose file can be read is answered with one of its values, or not at all. -/
theorem Settled.persistedSecret_mem {values : List String} (hs : Settled name values store)
    (keychainRead : Except String Unit) {v : String}
    (hv : persistedSecret name (some store.credentials) (keychainGet keychainRead name store) = some v) :
    v ∈ values := by
  rcases hs with ⟨hm, u, hu, hf⟩ | ⟨hm, hn, u, hu, hk⟩
  · simp only [persistedSecret, Option.any_some, hm, if_true, Option.bind_some, hf] at hv
    exact Option.some.inj hv ▸ hu
  · simp only [persistedSecret, Option.any_some, hm, Bool.false_eq_true, if_false, Option.bind_some,
      hn, Option.or_none] at hv
    cases keychainRead with
    | error error => cases hv
    | ok x =>
      have hv : store.keychain[name]? = some v := hv
      rw [hk] at hv
      exact Option.some.inj hv ▸ hu

/-- With an unreadable file the keychain alone answers. -/
theorem persistedSecret_none (keychainRead : Except String Unit) :
    persistedSecret name none (keychainGet keychainRead name store) =
      keychainGet keychainRead name store := by
  simp [persistedSecret]

/-! ### The keychain left behind -/

/-- The keychain still holds `old`: a set of the name returned `Ok` although its keychain write failed and
    another value lay there, and since then no set of the name has written the keychain or been passed
    that value. -/
def LeftBehindWith (env : Environment) (name : String) (h : SecretHistory) (old : String) : Prop :=
  Since (fun z => z.2.name = name → z.2.outcome.keychainSet = false ∧ z.2.value ≠ old)
    (fun y => y.2.name = name ∧ ReturnedOk env y ∧ y.2.outcome.keychainSet = false ∧
      y.1.keychain[name]? = some old ∧ y.2.value ≠ old) h

/-- The keychain was left behind with some value. -/
def LeftBehind (env : Environment) (name : String) (h : SecretHistory) : Prop :=
  ∃ old, LeftBehindWith env name h old

theorem keychain_fileRemove (outcome : Outcome) (name : String) (store : Store) :
    (fileRemove outcome name store).2.keychain = store.keychain := by
  rcases fileRemove_cases outcome name store with ⟨error, h⟩ | h <;> rw [h]

theorem keychain_fileSet (outcome : Outcome) (name value : String) (store : Store) :
    (fileSet outcome name value store).2.keychain = store.keychain := by
  rcases fileSet_cases outcome name value store with ⟨error, h⟩ | h <;> rw [h]

theorem keychain_finishKeychainWrite (outcome : Outcome) (name : String) (store : Store) :
    (finishKeychainWrite outcome name store).2.keychain = store.keychain := by
  rw [← keychain_fileRemove outcome name store]
  unfold finishKeychainWrite
  split
  · rename_i h
    rw [h]
  · rename_i h
    rw [h]

/-- The keychain after a set: written if its write succeeds, and else as it was. -/
theorem keychain_setWithBackends (outcome : Outcome) (name value : String) (store : Store) :
    (setWithBackends outcome name value store).2.keychain =
      if outcome.keychainSet then store.keychain.insert name value else store.keychain := by
  unfold setWithBackends keychainSet
  cases outcome.keychainSet with
  | true => exact keychain_finishKeychainWrite _ _ _
  | false =>
    simp only [Bool.false_eq_true, if_false]
    split
    · exact keychain_finishKeychainWrite _ _ _
    · rw [← keychain_fileSet outcome name value store]
      split
      · rename_i h
        rw [h]
      · rename_i h
        rw [h]

/-- A set of one name leaves the keychain's entry of another alone. -/
theorem keychain_set_of_ne {call : SetCall} (h : call.name ≠ name) :
    (set env call store).2.keychain[name]? = store.keychain[name]? := by
  unfold set
  split
  · rfl
  split
  · rfl
  rw [keychain_setWithBackends]
  split
  · rw [Std.ExtTreeMap.getElem?_insert, if_neg (compare_ne h)]
  · rfl

/-- A set that is not refused by its name writes its entry of the keychain, or leaves it. -/
theorem keychain_set_self {call : SetCall} (hname : isReservedName call.name = false)
    (henv : env (envVarName call.name) = none) :
    (set env call store).2.keychain[call.name]? =
      if call.outcome.keychainSet then some call.value else store.keychain[call.name]? := by
  rw [set, if_neg (Bool.eq_false_iff.mp hname), henv, if_neg (by simp), keychain_setWithBackends]
  split
  · exact Std.ExtTreeMap.getElem?_insert_self
  · rfl

/-- No set of a name that is reserved or overridden returns `Ok`. -/
theorem not_returnedOk_of_refused {y : Store × SetCall}
    (h : ¬ (isReservedName y.2.name = false ∧ env (envVarName y.2.name) = none)) : ¬ ReturnedOk env y := by
  intro hok
  rcases set_cases env y.2 y.1 with ⟨error, hset⟩ | ⟨hname, henv, -⟩
  · rw [ReturnedOk, hset] at hok
    cases hok
  · exact h ⟨hname, henv⟩

/-- So it has no current values. -/
theorem currentValues_of_refused (h : ¬ (isReservedName name = false ∧ env (envVarName name) = none)) :
    ∀ history : SecretHistory, currentValues env name history = none
  | [] => rfl
  | y :: history => by
    rw [currentValues]
    split
    · rename_i hy
      rw [if_neg (not_returnedOk_of_refused (hy ▸ h)), currentValues_of_refused h history]
      rfl
    · exact currentValues_of_refused h history

/-- The keychain holds `old` under the name, and `old` is none of the current values. -/
def StaleEntry (env : Environment) (name : String) (h : SecretHistory) (store : Store) (old : String) : Prop :=
  store.keychain[name]? = some old ∧ ∃ values, currentValues env name h = some values ∧ old ∉ values

section

variable {h : SecretHistory} {old : String} {call : SetCall}

/-- A set that writes the keychain leaves it with its own value, which is current. -/
theorem not_staleEntry_written (hname : isReservedName call.name = false)
    (henv : env (envVarName call.name) = none) (hwrites : call.outcome.keychainSet = true) :
    ¬ StaleEntry env call.name ((store, call) :: h) (set env call store).2 old := by
  rintro ⟨hkeychain, values, hvalues, hold⟩
  rw [keychain_set_self hname henv, if_pos hwrites] at hkeychain
  obtain rfl : call.value = old := Option.some.inj hkeychain
  rw [currentValues, if_pos rfl] at hvalues
  split at hvalues
  · cases hvalues
    exact hold (List.mem_singleton_self _)
  · obtain ⟨values', -, rfl⟩ := Option.map_eq_some_iff.mp hvalues
    exact hold List.mem_cons_self

/-- A set that does not write the keychain makes its entry stale if it returns `Ok`, and leaves a stale entry
    stale, each with another value. -/
theorem staleEntry_unwritten (hname : isReservedName call.name = false)
    (henv : env (envVarName call.name) = none) (hwrites : call.outcome.keychainSet = false) :
    StaleEntry env call.name ((store, call) :: h) (set env call store).2 old ↔
      call.value ≠ old ∧ (ReturnedOk env (store, call) ∧ store.keychain[call.name]? = some old ∨
        StaleEntry env call.name h store old) := by
  rw [StaleEntry, keychain_set_self hname henv, if_neg (by simp [hwrites]), currentValues, if_pos rfl]
  by_cases hok : ReturnedOk env (store, call)
  · -- the call is now the last that returned `Ok`
    simp only [if_pos hok, Option.some.injEq, exists_eq_left', List.mem_singleton]
    constructor
    · rintro ⟨hkeychain, hne⟩
      exact ⟨fun heq => hne heq.symm, Or.inl ⟨hok, hkeychain⟩⟩
    · rintro ⟨hne, ⟨-, hkeychain⟩ | ⟨hkeychain, -⟩⟩ <;> exact ⟨hkeychain, fun heq => hne heq.symm⟩
  · -- the call's value is one more that is current
    simp only [if_neg hok, Option.map_eq_some_iff]
    constructor
    · rintro ⟨hkeychain, _, ⟨values, hvalues, rfl⟩, hold⟩
      rw [List.mem_cons, not_or] at hold
      exact ⟨fun heq => hold.1 heq.symm, Or.inr ⟨hkeychain, values, hvalues, hold.2⟩⟩
    · rintro ⟨hne, ⟨hreturned, -⟩ | ⟨hkeychain, values, hvalues, hold⟩⟩
      · exact absurd hreturned hok
      · refine ⟨hkeychain, _, ⟨values, hvalues, rfl⟩, fun hmem => ?_⟩
        rcases List.mem_cons.mp hmem with heq | hmem
        · exact hne heq.symm
        · exact hold hmem

/-- A set of another name changes neither the entry nor what is current. -/
theorem staleEntry_of_ne (hcall : call.name ≠ name) :
    StaleEntry env name ((store, call) :: h) (set env call store).2 old ↔ StaleEntry env name h store old := by
  rw [StaleEntry, StaleEntry, keychain_set_of_ne hcall, currentValues, if_neg hcall]

/-- Where no set of the name is accepted nothing is stale. -/
theorem not_staleEntry_refused (hrefused : ¬ (isReservedName name = false ∧ env (envVarName name) = none)) :
    ¬ StaleEntry env name h store old := by
  rintro ⟨-, values, hvalues, -⟩
  rw [currentValues_of_refused hrefused] at hvalues
  cases hvalues

end

/-- **What the keychain holds is superseded** exactly when it was left behind with it.  By induction on the
    calls: each of them writes the keychain and is current, or leaves it. -/
theorem leftBehindWith_iff {store₀ : Store} {h : SecretHistory} (p : Path (secretSys env) store₀ h store)
    (name old : String) : LeftBehindWith env name h old ↔ StaleEntry env name h store old := by
  induction p with
  | start =>
    refine iff_of_false (fun hsince => ?_) (fun hstale => ?_)
    · obtain ⟨x, hx, -⟩ := Since.exists_mem hsince
      cases hx
    · obtain ⟨-, values, hvalues, -⟩ := hstale
      cases hvalues
  | @step h s s' call p hstep ih =>
    cases hstep
    rw [LeftBehindWith, since_cons, ← LeftBehindWith, ih]
    by_cases hcall : call.name = name
    · subst hcall
      by_cases haccepted : isReservedName call.name = false ∧ env (envVarName call.name) = none
      · obtain ⟨hname, henv⟩ := haccepted
        cases hwrites : call.outcome.keychainSet with
        | true =>
          refine iff_of_false ?_ (not_staleEntry_written hname henv hwrites)
          rintro (⟨-, -, hno, -⟩ | ⟨hkeep, -⟩)
          · cases hno
          · cases (hkeep rfl).1
        | false =>
          rw [staleEntry_unwritten hname henv hwrites]
          simp only [true_and, forall_const]
          tauto
      · -- no set of the name is accepted
        refine iff_of_false ?_ (not_staleEntry_refused haccepted)
        rintro (⟨-, hok, -⟩ | ⟨-, hstale⟩)
        · exact not_returnedOk_of_refused haccepted hok
        · exact not_staleEntry_refused haccepted hstale
    · rw [staleEntry_of_ne hcall]
      constructor
      · rintro (⟨hname, -⟩ | ⟨-, hrest⟩)
        · exact absurd hname hcall
        · exact hrest
      · exact fun hrest => Or.inr ⟨fun hname => absurd hname hcall, hrest⟩

/-- What the keychain holds is not superseded exactly when it was not left behind. -/
theorem notSuperseded_keychain_iff {store₀ : Store} {h : SecretHistory}
    (p : Path (secretSys env) store₀ h store) (name : String) :
    NotSuperseded env name h store.keychain[name]? ↔ ¬ LeftBehind env name h := by
  constructor
  · rintro hns ⟨old, hleft⟩
    obtain ⟨hkeychain, values, hvalues, hold⟩ := (leftBehindWith_iff p name old).mp hleft
    exact hold (hns values hvalues old hkeychain)
  · intro hleft values hvalues v hv
    by_contra hold
    exact hleft ⟨v, (leftBehindWith_iff p name v).mpr ⟨hv, values, hvalues, hold⟩⟩

/-- **Superseded credentials.**  After any calls of `set`, with both reads of `get` succeeding or failing:
    `get` brings back no superseded credential exactly when the file can be read, or the keychain cannot,
    or the calls have not left the keychain behind. -/
theorem get_superseded_iff {store₀ : Store} {h : SecretHistory}
    (p : Path (secretSys env) store₀ h store) (name : String) (reads : Reads) :
    NotSuperseded env name h (get env reads name store) ↔
      reads.fileRead.isOk = true ∨ reads.keychainRead.isOk = false ∨ ¬ LeftBehind env name h := by
  rw [← notSuperseded_keychain_iff p name]
  cases hcurrent : currentValues env name h with
  | none =>
    -- Nothing has been superseded yet.
    have hall : ∀ answer, NotSuperseded env name h answer := by
      intro answer values hvalues
      rw [hcurrent] at hvalues
      cases hvalues
    exact iff_of_true (hall _) (Or.inr (Or.inr (hall _)))
  | some values =>
    obtain ⟨hname, henv, hs⟩ := settled_run p name values hcurrent
    have hiff : ∀ answer, NotSuperseded env name h answer ↔ ∀ v, answer = some v → v ∈ values := by
      intro answer
      rw [NotSuperseded, hcurrent]
      exact ⟨fun hns => hns values rfl, fun hns _ hvalues => Option.some.inj hvalues ▸ hns⟩
    rw [hiff, hiff, get_eq_persistedSecret reads hname henv]
    cases hfile : reads.fileRead with
    | ok u =>
      exact iff_of_true (fun v hv => hs.persistedSecret_mem reads.keychainRead hv) (Or.inl rfl)
    | error error =>
      show (∀ v, persistedSecret name none _ = some v → v ∈ values) ↔ _
      rw [persistedSecret_none]
      cases hkeychain : reads.keychainRead with
      | error error =>
        refine iff_of_true ?_ (Or.inr (Or.inl rfl))
        intro v hv
        cases hv
      | ok u =>
        show (∀ v, store.keychain[name]? = some v → v ∈ values) ↔ _
        simp [Except.isOk, Except.toBool]

/-! ### The rotation that goes wrong -/

/-- The old key goes to the keychain, the new one to the file while the keychain is locked. -/
def rotation : List SetCall :=
  [⟨"openai_api_key", "old", {}⟩,
    ⟨"openai_api_key", "new", { keychainSet := false, keychainRead := .error "locked" }⟩]

/-- The history and the backends after it. -/
def rotated : SecretHistory × Store :=
  ((secretSys fun _ => none).trace ⟨∅, ∅⟩ rotation).getD ([], ⟨∅, ∅⟩)

theorem path_rotated : Path (secretSys fun _ => none) ⟨∅, ∅⟩ rotated.1 rotated.2 := by
  have htrace : (secretSys fun _ => none).trace ⟨∅, ∅⟩ rotation = some rotated := rfl
  exact Sys.path_of_trace _ htrace

/-- While the file does not parse, the superseded key is back. -/
theorem get_superseded :
    Path (secretSys fun _ => none) ⟨∅, ∅⟩ rotated.1 rotated.2 ∧
    get (fun _ => none) { fileRead := .error (.parse "expected `=`") } "openai_api_key" rotated.2 =
      some "old" ∧
    ¬ NotSuperseded (fun _ => none) "openai_api_key" rotated.1
      (get (fun _ => none) { fileRead := .error (.parse "expected `=`") } "openai_api_key" rotated.2) := by
  have hold : get (fun _ => none) { fileRead := .error (.parse "expected `=`") } "openai_api_key"
      rotated.2 = some "old" := by decide
  have hnew : currentValues (fun _ => none) "openai_api_key" rotated.1 = some ["new"] := by decide
  refine ⟨path_rotated, hold, ?_⟩
  intro h
  have hmem := h _ hnew _ hold
  exact absurd hmem (by decide)

/-- With the keychain locked as well, nothing comes back. -/
theorem get_superseded_iff_locked :
    NotSuperseded (fun _ => none) "openai_api_key" rotated.1
      (get (fun _ => none) ⟨.error "locked", .error (.parse "expected `=`")⟩ "openai_api_key" rotated.2) :=
  (get_superseded_iff path_rotated "openai_api_key" _).mpr (Or.inr (Or.inl rfl))

end Secrets

end Tellm
