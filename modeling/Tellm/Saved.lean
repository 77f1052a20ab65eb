/-
  THE SAVED FILES: config.toml and rooms.toml, as `tellm_config::{save, load}` and `rooms::{save_settings,
  load_settings}` write and read them.

  1. **Records** (`Tellm.Lib.Tables`): `Config`, `ModelConfig`, `RoomSettings` and their fields, with the
     defaults and the names in the files that their derives give them.  Text is made from tables and parsed
     into them by the toml crate, a parameter.
  2. **`load`, `loadSettings`**: with every way in which they fail.  rooms.toml has chat ids as strings.
  3. **Round trips**: what is saved is loaded (`load_save`, `loadSettings_saveSettings`).
  4. **`load_settings_cases`**: any rooms.toml that parses is refused with the names of its bad keys, or
     loaded by the last key of each chat, and saving it and loading it again changes nothing.

  The codecs are built from the fields in the source's order, each with its name in the file, and with
  what the derives say of it: required, optional and left out when absent, or with a default.  That a
  record is read back from what was written is then a theorem about records in general
  (`Tellm.Lib.Tables`), used at four types.

  The toml crate is a parameter with one law, that what it writes it reads back, for the tables in
  question.  A file that does not parse, does not decode, or does not pass the validator is refused, and
  the model has an error for each.

  Chat ids are map keys and TOML keys are strings, so rooms.toml has them in decimal.  A file that was
  edited by hand may have a key that is no number, or two spellings of one number; `load_settings_cases`
  covers every such file.
-/
import Tellm.Atomic
import Tellm.Lib.Tables
import Tellm.Access
import Tellm.Rooms
import Tellm.Text
import Tellm.Validate

namespace Tellm

open Tables Files Atomic Text

/-! ## The records -/

/-- The wire formats as the derive spells them. -/
def WireFormat.name : WireFormat → String
  | .anthropic => "anthropic"
  | .responses => "responses"
  | .compat => "compat"
  | .gemini => "gemini"

/-- A wire format is one of its names. -/
def WireFormat.codec : Codec WireFormat :=
  .constant WireFormat.name [.anthropic, .responses, .compat, .gemini] (by rintro (_ | _ | _ | _) <;> decide)
    (by rintro (_ | _ | _ | _) (_ | _ | _ | _) h <;> first | rfl | exact absurd h (by decide))

/-- The levels as the derive spells them. -/
def ThinkingLevel.name : ThinkingLevel → String
  | .off => "off"
  | .low => "low"
  | .medium => "medium"
  | .high => "high"
  | .max => "max"

/-- A thinking level is one of its names. -/
def ThinkingLevel.codec : Codec ThinkingLevel :=
  .constant ThinkingLevel.name [.off, .low, .medium, .high, .max] (by rintro (_ | _ | _ | _ | _) <;> decide)
    (by rintro (_ | _ | _ | _ | _) (_ | _ | _ | _ | _) h <;> first | rfl | exact absurd h (by decide))

/-- The modes as the derive spells them. -/
def ChatMode.name : ChatMode → String
  | .chat => "chat"
  | .message => "message"

/-- A mode is one of its names. -/
def ChatMode.codec : Codec ChatMode :=
  .constant ChatMode.name [.chat, .message] (by rintro (_ | _) <;> decide)
    (by rintro (_ | _) (_ | _) h <;> first | rfl | exact absurd h (by decide))

/-- The fields of a record, in their order. -/
def ModelConfig.equiv : ModelConfig ≃
    WireFormat × String × Option String × Bool × Option String × List Int × ThinkingLevel where
  toFun m := (m.wireFormat, m.modelName, m.baseUrl, m.allowInsecureHttp, m.apiKeySecret, m.telegramChatIds, m.thinking)
  invFun x := ⟨x.1, x.2.1, x.2.2.1, x.2.2.2.1, x.2.2.2.2.1, x.2.2.2.2.2.1, x.2.2.2.2.2.2⟩

/-- `ModelConfig`'s derive: two fields must be there, an option that is none is left out, and the rest has a
    default. -/
def ModelConfig.codec : Codec ModelConfig :=
  let fields :=
    (Record.field (.required "wire_format" WireFormat.codec)).and
    ((Record.field (.required "model_name" .string)).and
    ((Record.field (.optional "base_url" .string)).and
    ((Record.field (.skipped "allow_insecure_http" .boolean false)).and
    ((Record.field (.optional "api_key_secret" .string)).and
    ((Record.field (.defaulted "telegram_chat_ids" (.list .integer) [])).and
    (Record.field (.defaulted "thinking" ThinkingLevel.codec default)) (by decide)) (by decide)) (by decide))
      (by decide)) (by decide)) (by decide)
  (fields.as ModelConfig.equiv).codec

/-- The fields of `TelegramConfig`, in order. -/
def TelegramConfig.equiv : TelegramConfig ≃ List Int × List Int where
  toFun t := (t.allowedChatIds, t.ownerUserIds)
  invFun x := ⟨x.1, x.2⟩

/-- `TelegramConfig`'s derive: both lists default to empty ones. -/
def TelegramConfig.codec : Codec TelegramConfig :=
  let fields :=
    (Record.field (.defaulted "allowed_chat_ids" (.list .integer) [])).and
    (Record.field (.defaulted "owner_user_ids" (.list .integer) [])) (by decide)
  (fields.as TelegramConfig.equiv).codec

/-- The fields of `Config`, in order. -/
def Config.equiv : Config ≃ String × BTreeMap String ModelConfig × TelegramConfig where
  toFun c := (c.defaultModel, c.models, c.telegram)
  invFun x := ⟨x.1, x.2.1, x.2.2⟩

/-- `Config`'s derive: the table `telegram` may be left out. -/
def Config.codec : Codec Config :=
  let fields :=
    (Record.field (.required "default_model" .string)).and
    ((Record.field (.required "models" (.map ModelConfig.codec))).and
    (Record.field (.defaulted "telegram" TelegramConfig.codec {})) (by decide)) (by decide)
  (fields.as Config.equiv).codec

/-- The fields of `RoomSettings`, in order. -/
def RoomSettings.equiv : RoomSettings ≃
    Option String × ChatMode × Option String × Option ThinkingLevel × Bool × Bool where
  toFun r := (r.modelKey, r.mode, r.role, r.thinking, r.webSearch, r.imageGeneration)
  invFun x := ⟨x.1, x.2.1, x.2.2.1, x.2.2.2.1, x.2.2.2.2.1, x.2.2.2.2.2⟩

/-- `RoomSettings`'s derive: every field may be left out. -/
def RoomSettings.codec : Codec RoomSettings :=
  let fields :=
    (Record.field (.optional "model_key" .string)).and
    ((Record.field (.defaulted "mode" ChatMode.codec .chat)).and
    ((Record.field (.optional "role" .string)).and
    ((Record.field (.optional "thinking" ThinkingLevel.codec)).and
    ((Record.field (.defaulted "web_search" .boolean false)).and
    (Record.field (.defaulted "image_generation" .boolean false)) (by decide)) (by decide)) (by decide))
      (by decide)) (by decide)
  (fields.as RoomSettings.equiv).codec

/-- `RoomsToml`, whose one field is `rooms`. -/
def RoomsToml.codec : Codec (BTreeMap String RoomSettings) :=
  (Record.field (.defaulted "rooms" (.map RoomSettings.codec) ∅)).codec

namespace Saved

/-! ## Text -/

/-- The toml crate: tables to text, and text to tables.  The texts of its errors are its own. -/
structure Toml where
  toStringPretty : Tables.Value → Except String String
  fromStr : String → Except String Tables.Value

/-- The crate writes the value, and reads back what it wrote. -/
def Toml.RoundTrips (toml : Toml) (v : Tables.Value) : Prop :=
  ∃ text v', toml.toStringPretty v = .ok text ∧ toml.fromStr text = .ok v' ∧ Same v v'

/-- What can go wrong with a file; `ConfigError::Invalid` is `config`. -/
inductive FileError
  | io (error : IoError)
  | parse
  | serialize (message : String)
  | config (error : ConfigError)
  deriving DecidableEq

/-- `String::from_utf8`. -/
def fromUtf8 (bytes : List UInt8) : Option String := String.fromUTF8? ⟨bytes.toArray⟩

theorem fromUtf8_asBytes (text : String) : fromUtf8 (asBytes text) = some text := by
  simp only [fromUtf8, asBytes, Array.toArray_toList]
  rw [String.fromUTF8?, dif_pos text.isValidUTF8]
  rfl

/-- What `read_to_string` says of bytes that are no text. -/
def notUtf8 : IoError := ⟨.other, "stream did not contain valid UTF-8"⟩

/-- A crate that knows two documents, of which the first has the tables that `isFirst` picks out. -/
def tomlOf (isFirst : List (String × Tables.Value) → Bool) (first second : String × Tables.Value) : Toml where
  toStringPretty
    | .table entries => .ok (if isFirst entries then first.1 else second.1)
    | _ => .error "unsupported rust type"
  fromStr text :=
    if text = first.1 then .ok first.2 else if text = second.1 then .ok second.2 else .error "invalid TOML"

variable {α : Type}

theorem roundTrips_tomlOf_first {isFirst : List (String × Tables.Value) → Bool}
    {first second : String × Tables.Value} {c : Codec α} {a : α} {entries : List (String × Tables.Value)}
    (hencode : c.encode a = .table entries) (hpicked : isFirst entries = true) (hfirst : first.2 = c.encode a) :
    (tomlOf isFirst first second).RoundTrips (c.encode a) := by
  refine ⟨first.1, first.2, ?_, if_pos rfl, hfirst ▸ c.encode_same a⟩
  rw [hencode]
  simp only [tomlOf, hpicked, if_true]

theorem roundTrips_tomlOf_second {isFirst : List (String × Tables.Value) → Bool}
    {first second : String × Tables.Value} {c : Codec α} {a : α} {entries : List (String × Tables.Value)}
    (hencode : c.encode a = .table entries) (hpicked : isFirst entries = false) (hne : second.1 ≠ first.1)
    (hsecond : second.2 = c.encode a) : (tomlOf isFirst first second).RoundTrips (c.encode a) := by
  refine ⟨second.1, second.2, ?_, (if_neg hne).trans (if_pos rfl), hsecond ▸ c.encode_same a⟩
  rw [hencode]
  simp only [tomlOf, hpicked, Bool.false_eq_true, if_false]

/-- The table is that of a rooms.toml. -/
def hasRooms (entries : List (String × Tables.Value)) : Bool := (lookup entries "rooms").isSome

/-- The bytes that a value is saved as. -/
def contents (toml : Toml) (c : Codec α) (a : α) : Except FileError (List UInt8) :=
  match toml.toStringPretty (c.encode a) with
  | .ok text => .ok (asBytes text)
  | .error message => .error (.serialize message)

/-- `read_to_string` and `toml::from_str`, of what a read of the file came to. -/
def loaded (toml : Toml) (c : Codec α) (read : Except IoError (List UInt8)) : Except FileError α :=
  match read with
  | .error error => .error (.io error)
  | .ok bytes =>
    match fromUtf8 bytes with
    | none => .error (.io notUtf8)
    | some text =>
      match (toml.fromStr text).toOption.bind c.decode with
      | none => .error .parse
      | some a => .ok a

/-- What is written is loaded. -/
theorem loaded_contents {toml : Toml} {c : Codec α} {a : α} {bytes : List UInt8}
    (htoml : toml.RoundTrips (c.encode a)) (h : contents toml c a = .ok bytes) : loaded toml c (.ok bytes) = .ok a := by
  obtain ⟨text, v, htext, hvalue, hsame⟩ := htoml
  simp only [contents, htext] at h
  cases h
  simp only [loaded, fromUtf8_asBytes, hvalue]
  show (match c.decode v with
    | none => Except.error FileError.parse
    | some a => .ok a) = .ok a
  rw [c.decode_encode a v hsame]

theorem contents_ok {toml : Toml} {c : Codec α} {a : α} (htoml : toml.RoundTrips (c.encode a)) :
    ∃ bytes, contents toml c a = .ok bytes := by
  obtain ⟨text, v, htext, -⟩ := htoml
  exact ⟨asBytes text, by rw [contents, htext]⟩

/-! ## config.toml -/

/-- `tellm_config::load`. -/
def load (toml : Toml) (read : Except IoError (List UInt8)) : Except FileError Config :=
  loaded toml Config.codec read

/-- `tellm_config::load_validated`. -/
def loadValidated (toml : Toml) (parse : UrlParser) (read : Except IoError (List UInt8)) :
    Except FileError Config :=
  match load toml read with
  | .error error => .error error
  | .ok config =>
    match config.validate parse with
    | .ok () => .ok config
    | .error error => .error (.config error)

/-- What `tellm_config::save` hands to `write_atomic`. -/
def saveContents (toml : Toml) (config : Config) : Except FileError (List UInt8) :=
  contents toml Config.codec config

theorem load_save {toml : Toml} {config : Config} {bytes : List UInt8}
    (htoml : toml.RoundTrips (Config.codec.encode config)) (h : saveContents toml config = .ok bytes) :
    load toml (.ok bytes) = .ok config := loaded_contents htoml h

/-! ## rooms.toml -/

/-- The chat ids as strings, as `save_settings` collects them. -/
def roomsToml (settings : BTreeMap Int RoomSettings) : BTreeMap String RoomSettings :=
  .ofList (settings.toList.map fun e => (toString e.1, e.2)) compare

/-- The problem that `load_settings` reports of a key. -/
def invalidChatId (chatId : String) : String := "rooms.toml contains invalid chat_id \"" ++ chatId ++ "\""

/-- One round of `load_settings`'s loop. -/
def parseRoom (acc : BTreeMap Int RoomSettings × List String) (entry : String × RoomSettings) :
    BTreeMap Int RoomSettings × List String :=
  match parseI64 entry.1.toList with
  | some id => (acc.1.insert id entry.2, acc.2)
  | none => (acc.1, acc.2 ++ [invalidChatId entry.1])

/-- The loop, and what it comes to. -/
def parseRooms (file : BTreeMap String RoomSettings) : Except FileError (BTreeMap Int RoomSettings) :=
  let acc := file.toList.foldl parseRoom (∅, [])
  if acc.2.isEmpty then .ok acc.1 else .error (.config (.invalid acc.2))

/-- `rooms::load_settings`: `read` is `none` when there is no such file. -/
def loadSettings (toml : Toml) (read : Option (Except IoError (List UInt8))) :
    Except FileError (BTreeMap Int RoomSettings) :=
  match read with
  | none => .ok ∅
  | some read =>
    match loaded toml RoomsToml.codec read with
    | .error error => .error error
    | .ok file => parseRooms file

/-- What `rooms::save_settings` hands to `write_atomic`. -/
def saveSettingsContents (toml : Toml) (settings : BTreeMap Int RoomSettings) : Except FileError (List UInt8) :=
  contents toml RoomsToml.codec (roomsToml settings)

/-! ## Chat ids as strings -/

/-- An `i64`. -/
def InI64 (n : Int) : Prop := -2 ^ 63 ≤ n ∧ n < 2 ^ 63

theorem parseDigits_toDigits (n : Nat) : parseDigits (Nat.toDigits 10 n) = some n := by
  have hdigits : (Nat.toDigits 10 n).all Char.isDigit = true :=
    List.all_eq_true.mpr fun c hc => Nat.isDigit_of_mem_toDigits (by decide) (by decide) hc
  rw [parseDigits, if_neg]
  · refine congrArg some (Eq.trans ?_ (Nat.ofDigitChars_ten_toDigits (n := n)))
    rw [Nat.ofDigitChars_eq_foldl]
    congr 1
    funext a c
    rw [Nat.mul_comm]
  · simp [hdigits, Nat.toDigits_ne_nil]

/-- A chat id reads back from its string. -/
theorem parseI64_toString {n : Int} (h : InI64 n) : parseI64 (toString n).toList = some n := by
  obtain ⟨hlow, hhigh⟩ := h
  rw [Int.toString_eq_repr, Int.repr_eq_if]
  split
  · rename_i hn
    have hnat : parseDigits n.toNat.repr.toList = some n.toNat := by
      rw [Nat.toList_repr, parseDigits_toDigits]
    have hsign : ∀ c ∈ n.toNat.repr.toList, c ≠ '-' ∧ c ≠ '+' := by
      intro c hc
      rw [Nat.toList_repr] at hc
      have hdigit := Nat.isDigit_of_mem_toDigits (by decide) (by decide) hc
      constructor <;> (rintro rfl; exact absurd hdigit (by decide))
    rw [parseI64]
    · rw [hnat, Option.bind_some, if_pos (by omega), Int.toNat_of_nonneg hn]
    · intro digits heq
      exact (hsign '-' (heq ▸ List.mem_cons_self)).1 rfl
    · intro digits heq
      exact (hsign '+' (heq ▸ List.mem_cons_self)).2 rfl
  · rename_i hn
    rw [String.toList_append]
    show parseI64 ('-' :: (-n).toNat.repr.toList) = some n
    rw [parseI64, Nat.toList_repr, parseDigits_toDigits, Option.bind_some, if_pos (by omega)]
    congr 1
    omega

/-- Whatever parses is an `i64`. -/
theorem inI64_of_parseI64 {text : List Char} {n : Int} (h : parseI64 text = some n) : InI64 n := by
  unfold parseI64 at h
  split at h
  · obtain ⟨m, -, h⟩ := Option.bind_eq_some_iff.mp h
    obtain ⟨hm, h⟩ := Option.ite_none_right_eq_some.mp h
    cases h
    constructor <;> omega
  · obtain ⟨m, -, h⟩ := Option.bind_eq_some_iff.mp h
    obtain ⟨hm, h⟩ := Option.ite_none_right_eq_some.mp h
    cases h
    constructor <;> omega
  · obtain ⟨m, -, h⟩ := Option.bind_eq_some_iff.mp h
    obtain ⟨hm, h⟩ := Option.ite_none_right_eq_some.mp h
    cases h
    constructor <;> omega

/-! ## What `load_settings` makes of a file -/

/-- The loop's problems: one for each key that is not a chat id, in the order of the keys. -/
def badKeys (entries : List (String × RoomSettings)) : List String :=
  (entries.filter fun e => (parseI64 e.1.toList).isNone).map fun e => invalidChatId e.1

/-- The loop's rooms: each chat has the settings under the last of its keys. -/
def lastSettings (entries : List (String × RoomSettings)) (id : Int) : Option RoomSettings :=
  (entries.filter fun e => parseI64 e.1.toList = some id).getLast?.map Prod.snd

theorem foldl_parseRoom (entries : List (String × RoomSettings)) (rooms : BTreeMap Int RoomSettings)
    (problems : List String) :
    (entries.foldl parseRoom (rooms, problems)).2 = problems ++ badKeys entries ∧
      ∀ id : Int, (entries.foldl parseRoom (rooms, problems)).1[id]? = (lastSettings entries id).or rooms[id]? := by
  induction entries generalizing rooms problems with
  | nil => exact ⟨(List.append_nil _).symm, fun _ => rfl⟩
  | cons e entries ih =>
    rw [List.foldl_cons]
    cases hparse : parseI64 e.1.toList with
    | none =>
      obtain ⟨hproblems, hrooms⟩ := ih rooms (problems ++ [invalidChatId e.1])
      have hround : parseRoom (rooms, problems) e = (rooms, problems ++ [invalidChatId e.1]) := by
        rw [parseRoom, hparse]
      rw [hround]
      refine ⟨hproblems.trans (by simp [badKeys, hparse]), fun id => (hrooms id).trans ?_⟩
      simp [lastSettings, hparse]
    | some key =>
      obtain ⟨hproblems, hrooms⟩ := ih (rooms.insert key e.2) problems
      have hround : parseRoom (rooms, problems) e = (rooms.insert key e.2, problems) := by
        rw [parseRoom, hparse]
      rw [hround]
      refine ⟨hproblems.trans (by simp [badKeys, hparse]), fun id => (hrooms id).trans ?_⟩
      rw [Std.ExtTreeMap.getElem?_insert]
      by_cases hkey : key = id
      · subst hkey
        rw [if_pos (compare_eq_iff_eq.mpr rfl)]
        simp only [lastSettings, hparse, List.filter_cons, decide_true, if_true]
        cases entries.filter fun e => decide (parseI64 e.1.toList = some key) with
        | nil => rfl
        | cons x rest =>
          rw [List.getLast?_cons_cons, List.getLast?_eq_some_getLast (List.cons_ne_nil x rest)]
          rfl
      · simp [lastSettings, hparse, hkey]

/-- **`load_settings`, once the file has parsed**: it fails exactly when some key is not a chat id, and says
    which; otherwise each chat has the settings under the last of its keys. -/
theorem parseRooms_spec (file : BTreeMap String RoomSettings) :
    (∃ rooms, parseRooms file = .ok rooms ∧ badKeys file.toList = [] ∧
        ∀ id : Int, rooms[id]? = lastSettings file.toList id) ∨
      (badKeys file.toList ≠ [] ∧ parseRooms file = .error (.config (.invalid (badKeys file.toList)))) := by
  obtain ⟨hproblems, hrooms⟩ := foldl_parseRoom file.toList ∅ []
  rw [List.nil_append] at hproblems
  simp only [parseRooms, hproblems]
  by_cases hbad : badKeys file.toList = []
  · refine Or.inl ⟨_, by rw [hbad]; rfl, hbad, fun id => (hrooms id).trans ?_⟩
    rw [Std.ExtTreeMap.getElem?_empty, Option.or_none]
  · refine Or.inr ⟨hbad, ?_⟩
    rw [if_neg]
    simpa using hbad

theorem toString_inj {m n : Int} (hm : InI64 m) (hn : InI64 n) (h : toString m = toString n) : m = n := by
  have hparse := parseI64_toString hm
  rw [h, parseI64_toString hn] at hparse
  exact (Option.some.inj hparse).symm

/-- The saved keys are the chat ids' strings. -/
theorem mem_roomsToml {settings : BTreeMap Int RoomSettings} (hrange : ∀ id ∈ settings, InI64 id)
    {e : String × RoomSettings} : e ∈ (roomsToml settings).toList ↔
      ∃ id : Int, e.1 = toString id ∧ settings[id]? = some e.2 := by
  have hdistinct : (settings.toList.map fun e => (toString e.1, e.2)).Pairwise
      fun a b => ¬ compare a.1 b.1 = .eq := by
    rw [List.pairwise_map]
    refine List.Pairwise.imp_of_mem (fun {a b} ha hb hab heq => hab ?_) settings.distinct_keys_toList
    have hin : ∀ {x : Int × RoomSettings}, x ∈ settings.toList → InI64 x.1 := fun {x} hx =>
      hrange x.1 (Std.ExtTreeMap.mem_iff_isSome_getElem?.mpr (by
        rw [Std.ExtTreeMap.mem_toList_iff_getElem?_eq_some.mp hx]; rfl))
    exact compare_eq_iff_eq.mpr (toString_inj (hin ha) (hin hb) (compare_eq_iff_eq.mp heq))
  rw [show e = (e.1, e.2) from rfl, Std.ExtTreeMap.mem_toList_iff_getElem?_eq_some]
  constructor
  · intro h
    by_cases hkey : e.1 ∈ (settings.toList.map fun e => (toString e.1, e.2)).map Prod.fst
    · obtain ⟨x, hx, hxe⟩ := List.mem_map.mp hkey
      have hval := Std.ExtTreeMap.getElem?_ofList_of_mem (compare_eq_iff_eq.mpr rfl) hdistinct hx
      obtain ⟨y, hy, rfl⟩ := List.mem_map.mp hx
      rw [roomsToml, ← hxe, hval] at h
      refine ⟨y.1, hxe.symm, ?_⟩
      rw [← Option.some.inj h]
      exact Std.ExtTreeMap.mem_toList_iff_getElem?_eq_some.mp hy
    · rw [roomsToml, Std.ExtTreeMap.getElem?_ofList_of_contains_eq_false (by simpa using hkey)] at h
      cases h
  · rintro ⟨id, hkey, hid⟩
    have hmem : (toString id, e.2) ∈ settings.toList.map fun e => (toString e.1, e.2) :=
      List.mem_map.mpr ⟨(id, e.2), Std.ExtTreeMap.mem_toList_iff_getElem?_eq_some.mpr hid, rfl⟩
    exact Std.ExtTreeMap.getElem?_ofList_of_mem (compare_eq_iff_eq.mpr hkey.symm) hdistinct hmem

/-- What is saved is loaded. -/
theorem parseRooms_roomsToml {settings : BTreeMap Int RoomSettings} (hrange : ∀ id ∈ settings, InI64 id) :
    parseRooms (roomsToml settings) = .ok settings := by
  have hin : ∀ {id : Int} {s : RoomSettings}, settings[id]? = some s → InI64 id := fun {id s} h =>
    hrange id (Std.ExtTreeMap.mem_iff_isSome_getElem?.mpr (by rw [h]; rfl))
  rcases parseRooms_spec (roomsToml settings) with ⟨rooms, hrooms, -, hlast⟩ | ⟨hbad, -⟩
  · rw [hrooms]
    refine congrArg Except.ok (Std.ExtTreeMap.ext_getElem? fun id => (hlast id).trans ?_)
    -- the entries of the chat are the one under its own string
    cases hsettings : settings[id]? with
    | none =>
      rw [lastSettings, List.filter_eq_nil_iff.mpr]
      · rfl
      · intro e he hparse
        obtain ⟨id', hkey, hid'⟩ := (mem_roomsToml hrange).mp he
        rw [hkey, parseI64_toString (hin hid'), decide_eq_true_eq] at hparse
        rw [Option.some.inj hparse, hsettings] at hid'
        cases hid'
    | some s =>
      have hall : ∀ e ∈ (roomsToml settings).toList.filter fun e => parseI64 e.1.toList = some id,
          e.2 = s := by
        intro e he
        rw [List.mem_filter, decide_eq_true_eq] at he
        obtain ⟨id', hkey, hid'⟩ := (mem_roomsToml hrange).mp he.1
        have hparse := he.2
        rw [hkey, parseI64_toString (hin hid')] at hparse
        rw [Option.some.inj hparse, hsettings] at hid'
        exact (Option.some.inj hid').symm
      have hthere : (toString id, s) ∈ (roomsToml settings).toList.filter
          fun e => parseI64 e.1.toList = some id := by
        rw [List.mem_filter, decide_eq_true_eq]
        exact ⟨(mem_roomsToml hrange).mpr ⟨id, rfl, hsettings⟩, parseI64_toString (hin hsettings)⟩
      rw [lastSettings]
      have hlast := List.getLast?_eq_some_getLast (List.ne_nil_of_mem hthere)
      rw [hlast, Option.map_some, hall _ (List.mem_of_getLast? hlast)]
  · refine absurd ?_ hbad
    rw [badKeys, List.filter_eq_nil_iff.mpr, List.map_nil]
    intro e he hnone
    obtain ⟨id, hkey, hid⟩ := (mem_roomsToml hrange).mp he
    rw [hkey, parseI64_toString (hin hid)] at hnone
    cases hnone

/-- **rooms.toml round trip**: what `save_settings` writes, `load_settings` reads; and whatever file it
    accepts, with `+7` or `007` for a key, it makes settings of that it reads back when they are saved. -/
theorem loadSettings_saveSettings {toml : Toml} {settings : BTreeMap Int RoomSettings} {bytes : List UInt8}
    (htoml : toml.RoundTrips (RoomsToml.codec.encode (roomsToml settings))) (hrange : ∀ id ∈ settings, InI64 id)
    (h : saveSettingsContents toml settings = .ok bytes) :
    loadSettings toml (some (.ok bytes)) = .ok settings := by
  rw [loadSettings]
  simp only [loaded_contents htoml h, parseRooms_roomsToml hrange]

/-- The settings of a room, with some of the fields left out. -/
def fortyTwo : RoomSettings := { mode := .message, thinking := some .off, webSearch := true }

/-- The rooms.toml of that room, as the crate may write it. -/
def fortyTwoText : String :=
  "[rooms.42]\nmode = \"message\"\nthinking = \"off\"\nweb_search = true\nimage_generation = false\n"

theorem loadSettings_saveSettings_fortyTwo :
    let settings := (∅ : BTreeMap Int RoomSettings).insert 42 fortyTwo
    let document := (fortyTwoText, RoomsToml.codec.encode (roomsToml settings))
    loadSettings (tomlOf hasRooms document document) (some (.ok (asBytes fortyTwoText))) = .ok settings := by
  intro settings document
  refine loadSettings_saveSettings (roundTrips_tomlOf_first rfl rfl rfl) ?_ rfl
  intro id hid
  rw [Std.ExtTreeMap.mem_insert, compare_eq_iff_eq] at hid
  rcases hid with rfl | hid
  · exact ⟨by decide, by decide⟩
  · exact absurd hid Std.ExtTreeMap.not_mem_empty

/-- Every chat id that is loaded is an `i64`. -/
theorem inI64_of_parseRooms {file : BTreeMap String RoomSettings} {settings : BTreeMap Int RoomSettings}
    (h : parseRooms file = .ok settings) : ∀ id ∈ settings, InI64 id := by
  intro id hid
  rcases parseRooms_spec file with ⟨rooms, hrooms, -, hlast⟩ | ⟨-, herror⟩
  · obtain rfl : rooms = settings := Except.ok.inj (hrooms.symm.trans h)
    obtain ⟨s, hs⟩ := Option.isSome_iff_exists.mp (Std.ExtTreeMap.mem_iff_isSome_getElem?.mp hid)
    rw [hlast] at hs
    obtain ⟨e, he, -⟩ := Option.map_eq_some_iff.mp hs
    have hmem := List.mem_of_getLast? he
    rw [List.mem_filter, decide_eq_true_eq] at hmem
    exact inI64_of_parseI64 hmem.2
  · rw [h] at herror
    cases herror

/-- **What `load_settings` makes of any rooms.toml that parses**: it names every key that is not a chat id; or
    there is none, each chat has the settings under the last of its keys (`+7` and `007` are keys of chat 7),
    and what it has made is read back once `save_settings` has written it. -/
theorem load_settings_cases {toml : Toml} {bytes : List UInt8} {file : BTreeMap String RoomSettings}
    (hparses : loaded toml RoomsToml.codec (.ok bytes) = .ok file) :
    (badKeys file.toList = [] ∧ ∃ rooms, loadSettings toml (some (.ok bytes)) = .ok rooms ∧
        (∀ id : Int, rooms[id]? = lastSettings file.toList id) ∧
        ∀ saved, toml.RoundTrips (RoomsToml.codec.encode (roomsToml rooms)) →
          saveSettingsContents toml rooms = .ok saved → loadSettings toml (some (.ok saved)) = .ok rooms) ∨
      (badKeys file.toList ≠ [] ∧
        loadSettings toml (some (.ok bytes)) = .error (.config (.invalid (badKeys file.toList)))) := by
  have hload : loadSettings toml (some (.ok bytes)) = parseRooms file := by
    rw [loadSettings]
    simp only [hparses]
  rw [hload]
  rcases parseRooms_spec file with ⟨rooms, hrooms, hgood, hlast⟩ | hbad
  · refine Or.inl ⟨hgood, rooms, hrooms, hlast, fun saved htoml hsaved => ?_⟩
    exact loadSettings_saveSettings htoml (inI64_of_parseRooms hrooms) hsaved
  · exact Or.inr hbad

/-- A rooms.toml that somebody has edited. -/
def sevensText : String := "[rooms.007]\nmode = \"message\"\n\n[rooms.7]\nrole = \"pirate\"\n"

/-- What the crate reads of it. -/
def sevens : BTreeMap String RoomSettings :=
  (∅ : BTreeMap String RoomSettings).insert "007" { mode := .message } |>.insert "7" { role := some "pirate" }

/-- Two keys of chat 7; the second is the later one. -/
theorem load_settings_cases_sevens :
    let toml := tomlOf hasRooms (sevensText, RoomsToml.codec.encode sevens) ("", .table [])
    ∃ rooms, loadSettings toml (some (.ok (asBytes sevensText))) = .ok rooms ∧
      rooms[(7 : Int)]? = some { role := some "pirate" } := by
  intro toml
  have htrips : toml.RoundTrips (RoomsToml.codec.encode sevens) := roundTrips_tomlOf_first rfl rfl rfl
  rcases load_settings_cases (loaded_contents htrips rfl) with ⟨-, rooms, hrooms, hlast, -⟩ | ⟨hbad, -⟩
  · exact ⟨rooms, hrooms, (hlast 7).trans (by decide)⟩
  · exact absurd (by decide) hbad

end Saved

end Tellm
