/-
  UNLOAD: the request that `unload_model_blocking` writes into a socket (`ollama.rs`).

  tellm asks a local Ollama to drop a model by a request that it puts together as text.  The model name is
  whatever the config says, so it may hold quotes, line ends or any other character.

  1. **`unloadRequest`**: the text, with the body as serde_json writes it.
  2. **JSON**: what a server makes of a string literal and of an object of scalars (`readString`,
     `readObject`); `JsonWriter` is what is asked of serde_json, and `compactJson` does it.
  3. **`unload_request_read`**: an HTTP server reads exactly one request, of the method, the path and the
     headers intended, whose body names the model and nothing else.

  The reader on the other side is written from the protocols and not from the code: `Tellm.Lib.Http`
  splits the request by the rules of HTTP/1.1, and `readObject` reads the body by those of JSON for
  objects of strings, numbers and booleans, with every escape that JSON has.  That both undo what the
  program wrote is the result; it cannot hold by the two having been written alike.

  serde_json is a parameter: what is asked of it (`JsonWriter`) is the compact form of each kind of value,
  and that a string it has written is read back by the rules for literals; `compactJson` is a function
  that does both.

  The address in the Host header has been accepted by `local_addr`, so it is one of a few names and a
  port; it holds no line end.  The model name gets into the body only, where a quote or a line end is
  escaped, and Content-Length counts the bytes of the escaped text.
-/
import Tellm.Lib.Http
import Tellm.Endpoint
import Tellm.JsonSize
import Tellm.Saved

namespace Tellm

open Text Substitutions

namespace Ollama

/-! ## The request -/

section

-- `serde_json`: `Value::to_string`
variable (serialize : Value → String)

/-- The body that `unload_model_at` posts: an empty prompt, and a lifetime of zero. -/
def unloadBody (model : String) : List Char :=
  (serialize (.object (Fields.of [("model", .string model), ("prompt", .string ""), ("stream", .bool false),
    ("keep_alive", .number "0")]))).toList

/-- The request that `unload_model_at` writes by hand, with the length of the body in bytes. -/
def unloadRequest (addr model : String) : List Char :=
  let body := unloadBody serialize model
  "POST /api/generate HTTP/1.1\r\nHost: ".toList ++ addr.toList ++
    "\r\nContent-Type: application/json\r\nContent-Length: ".toList ++
    (toString (Http.byteLength body)).toList ++ "\r\nConnection: close\r\n\r\n".toList ++ body

/-- The same as a request. -/
def unloadHttp (addr model : String) : Http.Request where
  method := "POST".toList
  target := "/api/generate".toList
  headers := [("Host".toList, addr.toList), ("Content-Type".toList, "application/json".toList),
    ("Content-Length".toList, (toString (Http.byteLength (unloadBody serialize model))).toList),
    ("Connection".toList, "close".toList)]
  body := unloadBody serialize model

end

/-! ## JSON as a server reads it -/

/-- A hexadecimal digit. -/
def hexDigit (c : Char) : Option Nat :=
  if c.isDigit then some (c.toNat - '0'.toNat)
  else if 'a' ≤ c ∧ c ≤ 'f' then some (c.toNat - 'a'.toNat + 10)
  else if 'A' ≤ c ∧ c ≤ 'F' then some (c.toNat - 'A'.toNat + 10)
  else none

/-- What follows a backslash, but for `u`. -/
def shortEscape (c : Char) : Option Char :=
  let escapes := [('"', '"'), ('\\', '\\'), ('/', '/'), ('b', '\x08'), ('f', '\x0c'), ('n', '\n'), ('r', '\r'),
    ('t', '\t')]
  escapes.lookup c

/-- Four hexadecimal digits. -/
def codeUnit (a b c d : Char) : Option Char :=
  (hexDigit a).bind fun a => (hexDigit b).bind fun b => (hexDigit c).bind fun c => (hexDigit d).bind fun d =>
    let n := a * 4096 + b * 256 + c * 16 + d
    if n.isValidChar then some (Char.ofNat n) else none

/-- A string literal after its opening quote, and what follows it. -/
def unescape : List Char → Option (List Char × List Char)
  | [] => none
  | '"' :: rest => some ([], rest)
  | '\\' :: 'u' :: a :: b :: c :: d :: rest =>
    (codeUnit a b c d).bind fun e => (unescape rest).map fun (text, rest) => (e :: text, rest)
  | '\\' :: c :: rest =>
    (shortEscape c).bind fun e => (unescape rest).map fun (text, rest) => (e :: text, rest)
  | c :: rest => if c < ' ' then none else (unescape rest).map fun (text, rest) => (c :: text, rest)

/-- A string literal with its opening quote, and what follows it. -/
def readString : List Char → Option (List Char × List Char)
  | '"' :: rest => unescape rest
  | _ => none

/-- A character of a number. -/
def numberChar (c : Char) : Bool := c.isDigit || c == '-' || c == '+' || c == '.' || c == 'e' || c == 'E'

/-- A string, a literal name or a number, and what follows it. -/
def readScalar (text : List Char) : Option (Value × List Char) :=
  match readString text with
  | some (value, rest) => some (.string (String.ofList value), rest)
  | none =>
    match dropPattern "true".toList text, dropPattern "false".toList text, dropPattern "null".toList text with
    | some rest, _, _ => some (.bool true, rest)
    | none, some rest, _ => some (.bool false, rest)
    | none, none, some rest => some (.null, rest)
    | none, none, none =>
      let number := text.takeWhile numberChar
      if number.isEmpty then none else some (.number (String.ofList number), text.dropWhile numberChar)

/-- The fields of an object up to its end; there are at most `fuel`. -/
def readFields : Nat → List Char → Option (Fields × List Char)
  | 0, _ => none
  | fuel + 1, text =>
    match readString text with
    | some (key, ':' :: rest) =>
      match readScalar rest with
      | some (value, ',' :: rest) =>
        (readFields fuel rest).map fun (fields, rest) => ((String.ofList key, value) :: fields, rest)
      | some (value, '\x7d' :: rest) => some ([(String.ofList key, value)], rest)
      | _ => none
    | _ => none

/-- An object whose values are scalars. -/
def readObject : List Char → Option (Fields × List Char)
  | '\x7b' :: '\x7d' :: rest => some ([], rest)
  | '\x7b' :: rest => readFields rest.length rest
  | _ => none

/-- What is asked of serde_json: compact texts, and a literal for each string that means the string. -/
structure JsonWriter (serialize : Value → String) : Prop extends CompactSerializer serialize where
  quoted : ∀ text rest, readString ((serialize (.string text)).toList ++ rest) = some (text.toList, rest)

/-! ## `compactJson` is such a writer -/

/-- The two digits of a control character. -/
theorem codeUnit_control {c : Char} (h : c < ' ') :
    codeUnit '0' '0' (Nat.digitChar (c.toNat / 16)) (Nat.digitChar (c.toNat % 16)) = some c := by
  have hall : ∀ n < 32,
      codeUnit '0' '0' (Nat.digitChar (n / 16)) (Nat.digitChar (n % 16)) = some (Char.ofNat n) := by
    decide
  rw [hall c.toNat h, Char.ofNat_toNat]

theorem unescape_escapeJsonChar (c : Char) (rest : List Char) :
    unescape (escapeJsonChar c ++ rest) = (unescape rest).map fun (text, rest) => (c :: text, rest) := by
  unfold escapeJsonChar
  split
  · subst c; rfl
  split
  · subst c; rfl
  split
  · subst c; rfl
  split
  · subst c; rfl
  split
  · subst c; rfl
  split
  · subst c; rfl
  split
  · subst c; rfl
  split
  · rename_i hcontrol
    show unescape ('\\' :: 'u' :: '0' :: '0' :: _ :: _ :: rest) = _
    rw [unescape, codeUnit_control hcontrol]
    rfl
  · rename_i _ hbackslash _ _ _ _ _ hcontrol
    rw [List.singleton_append]
    simp [unescape, hbackslash, hcontrol]

theorem readString_quoteJson (text : String) (rest : List Char) :
    readString ((quoteJson text).toList ++ rest) = some (text.toList, rest) := by
  have hread : ∀ cs : List Char, unescape (cs.flatMap escapeJsonChar ++ '"' :: rest) = some (cs, rest) := by
    intro cs
    induction cs with
    | nil => rfl
    | cons c cs ih =>
      rw [List.flatMap_cons, List.append_assoc, unescape_escapeJsonChar, ih]
      rfl
  have htext : (quoteJson text).toList ++ rest =
      '"' :: (text.toList.flatMap escapeJsonChar ++ '"' :: rest) := by
    simp [quoteJson]
  rw [htext]
  exact hread text.toList

theorem jsonWriter_compactJson : JsonWriter compactJson where
  toCompactSerializer := compactSerializer_compactJson
  quoted text rest := by
    rw [compactJson]
    exact readString_quoteJson text rest

/-! ## Reading an object -/

/-- A value that is neither an array nor an object; a number is a number's text. -/
def Scalar : Value → Prop
  | .string _ | .bool _ | .null => True
  | .number text => text.toList ≠ [] ∧ ∀ c ∈ text.toList, numberChar c = true
  | _ => False

variable {serialize : Value → String}

theorem readString_of_head {c : Char} (hc : c ≠ '"') (text : List Char) : readString (c :: text) = none := by
  unfold readString
  split
  · rename_i heq
    exact absurd (List.cons.inj heq).1 hc
  · rfl

/-- A scalar is read up to the comma or the brace after it. -/
theorem readScalar_serialize (hserialize : JsonWriter serialize) {value : Value} (hscalar : Scalar value)
    {stop : Char} (hstop : numberChar stop = false) (rest : List Char) :
    readScalar ((serialize value).toList ++ stop :: rest) = some (value, stop :: rest) := by
  cases value with
  | null =>
    rw [hserialize.null]
    rfl
  | bool value =>
    rw [hserialize.bool]
    cases value <;> rfl
  | string text =>
    rw [readScalar, hserialize.quoted]
    simp
  | number text =>
    rw [hserialize.number]
    obtain ⟨hne, hall⟩ := hscalar
    obtain ⟨d, ds, htext⟩ := List.exists_cons_of_ne_nil hne
    have hd : numberChar d = true := hall d (htext ▸ List.mem_cons_self)
    have hother : ∀ c, numberChar c = false → d ≠ c := by
      rintro c hc rfl
      rw [hd] at hc
      cases hc
    have htake : (text.toList ++ stop :: rest).takeWhile numberChar = text.toList := by
      rw [List.takeWhile_append_of_pos hall, List.takeWhile_cons_of_neg (by simp [hstop]), List.append_nil]
    have hdrop : (text.toList ++ stop :: rest).dropWhile numberChar = stop :: rest := by
      rw [List.dropWhile_append_of_pos hall, List.dropWhile_cons_of_neg (by simp [hstop])]
    -- a number is none of the other three
    have hstring : readString (text.toList ++ stop :: rest) = none := by
      rw [htext]
      exact readString_of_head (hother '"' rfl) _
    have hname : ∀ c name, numberChar c = false →
        dropPattern (c :: name) (text.toList ++ stop :: rest) = none := by
      intro c name hc
      rw [htext]
      exact dropPattern_cons_ne (hother c hc) name _
    have htrue : dropPattern "true".toList (text.toList ++ stop :: rest) = none := hname 't' _ rfl
    have hfalse : dropPattern "false".toList (text.toList ++ stop :: rest) = none := hname 'f' _ rfl
    have hnull : dropPattern "null".toList (text.toList ++ stop :: rest) = none := hname 'n' _ rfl
    rw [readScalar, hstring, htrue, hfalse, hnull]
    dsimp only
    rw [htake, hdrop, if_neg (by simpa using hne), String.ofList_toList]
  | array values => exact absurd hscalar id
  | object values => exact absurd hscalar id

/-- The fields between the braces. -/
def fieldTexts (serialize : Value → String) (fields : Fields) : List String :=
  fields.map fun field => serialize (.string field.1) ++ ":" ++ serialize field.2

theorem readFields_serialize (hserialize : JsonWriter serialize) (fields : Fields) (hne : fields ≠ [])
    (hscalar : ∀ field ∈ fields, Scalar field.2) {fuel : Nat} (hfuel : fields.length ≤ fuel)
    (rest : List Char) :
    readFields fuel ((",".intercalate (fieldTexts serialize fields)).toList ++ '\x7d' :: rest) =
      some (fields, rest) := by
  induction fields generalizing fuel with
  | nil => exact absurd rfl hne
  | cons field fields ih =>
    obtain ⟨fuel, rfl⟩ := Nat.exists_eq_add_one.mpr (Nat.lt_of_lt_of_le (Nat.zero_lt_succ _) hfuel)
    obtain ⟨hvalue, hvalues⟩ := List.forall_mem_cons.mp hscalar
    cases fields with
    | nil =>
      have htext : (",".intercalate (fieldTexts serialize [field])).toList ++ '\x7d' :: rest =
          (serialize (.string field.1)).toList ++ ':' :: ((serialize field.2).toList ++ '\x7d' :: rest) := by
        simp [fieldTexts]
      have hread : readScalar ((serialize field.2).toList ++ '\x7d' :: rest) =
          some (field.2, '\x7d' :: rest) :=
        readScalar_serialize hserialize hvalue rfl rest
      rw [htext, readFields, hserialize.quoted]
      simp only [hread, String.ofList_toList]
    | cons next fields =>
      have htext :
          (",".intercalate (fieldTexts serialize (field :: next :: fields))).toList ++ '\x7d' :: rest =
          (serialize (.string field.1)).toList ++ ':' :: ((serialize field.2).toList ++
            ',' :: ((",".intercalate (fieldTexts serialize (next :: fields))).toList ++ '\x7d' :: rest)) := by
        simp [fieldTexts, String.intercalate_cons_cons]
      have hread : ∀ after, readScalar ((serialize field.2).toList ++ ',' :: after) =
          some (field.2, ',' :: after) :=
        readScalar_serialize hserialize hvalue rfl
      rw [htext, readFields, hserialize.quoted]
      simp only [hread, ih (List.cons_ne_nil _ _) hvalues (Nat.le_of_succ_le_succ hfuel), Option.map_some,
        String.ofList_toList]

/-- There are no more fields than characters and the brace. -/
theorem length_fieldTexts (serialize : Value → String) (fields : Fields) :
    fields.length ≤ (",".intercalate (fieldTexts serialize fields)).toList.length + 1 := by
  induction fields with
  | nil => exact Nat.zero_le _
  | cons field fields ih =>
    cases fields with
    | nil => exact Nat.le_add_left _ _
    | cons next fields =>
      have htext : (",".intercalate (fieldTexts serialize (field :: next :: fields))).toList =
          (serialize (.string field.1) ++ ":" ++ serialize field.2).toList ++
            ',' :: (",".intercalate (fieldTexts serialize (next :: fields))).toList := by
        simp [fieldTexts, String.intercalate_cons_cons]
      rw [htext]
      simp only [List.length_append, List.length_cons] at ih ⊢
      omega

theorem readObject_of_fields {text : List Char} {read : Fields × List Char}
    (h : readFields text.length text = some read) : readObject ('\x7b' :: text) = some read := by
  cases text with
  | nil => cases h
  | cons c text =>
    by_cases hc : c = '\x7d'
    · subst hc
      cases h
    · unfold readObject
      split
      · rename_i heq
        exact absurd (List.cons.inj (List.cons.inj heq).2).1 hc
      · rename_i heq
        obtain rfl := (List.cons.inj heq).2
        exact h
      · rename_i hno
        exact absurd rfl (hno _)

/-- An object of scalars is read back field by field. -/
theorem readObject_serialize (hserialize : JsonWriter serialize) {fields : Fields} (hne : fields ≠ [])
    (hscalar : ∀ field ∈ fields, Scalar field.2) :
    readObject (serialize (.object fields)).toList = some (fields, []) := by
  have hobject : (serialize (.object fields)).toList =
      '\x7b' :: ((",".intercalate (fieldTexts serialize fields)).toList ++ ['\x7d']) := by
    rw [hserialize.object]
    simp [fieldTexts]
  have hfuel : fields.length ≤
      ((",".intercalate (fieldTexts serialize fields)).toList ++ ['\x7d']).length := by
    rw [List.length_append]
    exact length_fieldTexts serialize fields
  rw [hobject]
  exact readObject_of_fields (readFields_serialize hserialize fields hne hscalar hfuel [])

/-! ## The request is read back -/

/-- The fields of the body, in the order of serde_json's map. -/
def unloadFields (model : String) : Fields :=
  [("keep_alive", .number "0"), ("model", .string model), ("prompt", .string ""), ("stream", .bool false)]

theorem unloadBody_eq (serialize : Value → String) (model : String) :
    unloadBody serialize model = (serialize (.object (unloadFields model))).toList := by
  have hprompt : compare "prompt" "model" = .gt := by decide
  have hstream : compare "stream" "model" = .gt := by decide
  have hstream' : compare "stream" "prompt" = .gt := by decide
  have halive : compare "keep_alive" "model" = .lt := by decide
  simp only [unloadBody, Fields.of, List.foldl_cons, List.foldl_nil, Fields.insert, hprompt, hstream,
    hstream', halive, unloadFields]

theorem unloadRequest_eq (serialize : Value → String) (addr model : String) :
    unloadRequest serialize addr model = (unloadHttp serialize addr model).write := by
  have hhost : "POST /api/generate HTTP/1.1\r\nHost: ".toList =
      "POST".toList ++ ' ' :: "/api/generate".toList ++ ' ' :: Http.version ++ Http.crlf ++ ("Host".toList ++ [':', ' ']) := by decide
  have htype : "\r\nContent-Type: application/json\r\nContent-Length: ".toList = Http.crlf ++
      ("Content-Type".toList ++ ':' :: ' ' :: "application/json".toList) ++ Http.crlf ++
      ("Content-Length".toList ++ [':', ' ']) := by decide
  have hclose : "\r\nConnection: close\r\n\r\n".toList = Http.crlf ++
      ("Connection".toList ++ ':' :: ' ' :: "close".toList) ++ Http.crlf ++ Http.crlf := by decide
  unfold unloadRequest
  dsimp only
  rw [hhost, htype, hclose]
  simp only [unloadHttp, Http.Request.write, Http.Request.requestLine, Http.writeHeaders, Http.headerLine,
    List.append_assoc, List.cons_append, List.nil_append]

/-- What does not stand in a local name, a port or a bracket does not stand in an address. -/
theorem not_mem_localAddr {baseUrl addr : String} (h : localAddr baseUrl = some addr) {c : Char}
    (hc : c ∉ ['[', ']', ':'] ++ "11434".toList ++ localNames.flatten) : c ∉ addr.toList := by
  obtain ⟨-, name, hname, opening, closing, haddr, -⟩ := localAddr_eq_some_iff.mp h
  rw [List.mem_append, List.mem_append, not_or, not_or] at hc
  obtain ⟨⟨hbrackets, hport⟩, hnames⟩ := hc
  rw [haddr, localAuthority, bracketed]
  simp only [List.mem_append, List.mem_cons, not_or]
  refine ⟨⟨⟨fun hmem => ?_, fun hmem => ?_⟩, fun hmem => ?_⟩, fun hmem => ?_, hport⟩
  · rw [List.eq_of_mem_replicate hmem] at hbrackets
    exact hbrackets List.mem_cons_self
  · exact hnames (List.mem_flatten.mpr ⟨name, hname, hmem⟩)
  · rw [List.eq_of_mem_replicate hmem] at hbrackets
    exact absurd hbrackets (by decide)
  · rw [hmem] at hbrackets
    exact absurd hbrackets (by decide)

theorem oneLine_of_not_mem {text : List Char} (hreturn : '\r' ∉ text) (hspace : ' ' ∉ text) :
    Http.OneLine text ∧ text.head? ≠ some ' ' :=
  ⟨hreturn, fun hhead => hspace (List.mem_of_head? hhead)⟩

theorem parseDigits_toString (n : Nat) : parseDigits (toString n).toList = some n := by
  have htext : (toString n).toList = Nat.toDigits 10 n := by
    show (Nat.repr n).toList = _
    rw [Nat.repr, String.toList_ofList]
  rw [htext]
  exact Saved.parseDigits_toDigits n

theorem isDigit_of_parseDigits {text : List Char} {n : Nat} (h : parseDigits text = some n) {c : Char}
    (hc : c ∈ text) : c.isDigit = true := by
  unfold parseDigits at h
  split at h
  · cases h
  · rename_i hall
    simp only [Bool.or_eq_true, Bool.not_eq_true', not_or, Bool.not_eq_false] at hall
    exact List.all_eq_true.mp hall.2 c hc

theorem wellFormed_header {name value : List Char} (hname : Http.OneLine name ∧ ':' ∉ name)
    (hvalue : Http.OneLine value ∧ value.head? ≠ some ' ') : Http.WellFormed (name, value) :=
  ⟨hname.1, hname.2, hvalue.1, hvalue.2⟩

theorem wellFormed_unloadHttp (serialize : Value → String) {baseUrl addr : String}
    (haddr : localAddr baseUrl = some addr) (model : String) :
    (unloadHttp serialize addr model).WellFormed parseDigits where
  method := by
    show Http.OneLine "POST".toList ∧ ' ' ∉ "POST".toList
    decide
  target := by
    show Http.OneLine "/api/generate".toList ∧ ' ' ∉ "/api/generate".toList
    decide
  headers := by
    have hdigits : ∀ c, c.isDigit = false →
        c ∉ (toString (Http.byteLength (unloadBody serialize model))).toList := by
      intro c hc hmem
      rw [isDigit_of_parseDigits (parseDigits_toString _) hmem] at hc
      cases hc
    have hhost :=
      oneLine_of_not_mem (not_mem_localAddr haddr (by decide)) (not_mem_localAddr haddr (by decide))
    have hlength := oneLine_of_not_mem (hdigits '\r' rfl) (hdigits ' ' rfl)
    intro header hheader
    simp only [unloadHttp, List.mem_cons, List.not_mem_nil, or_false] at hheader
    rcases hheader with rfl | rfl | rfl | rfl
    · exact wellFormed_header (by decide) hhost
    · exact wellFormed_header (by decide) (by decide)
    · exact wellFormed_header (by decide) hlength
    · exact wellFormed_header (by decide) (by decide)
  length := parseDigits_toString _

/-- **What arrives is one request for this model**: whatever characters the model's name holds, an HTTP server
    reads the path, the headers and the body that were meant, nothing is left over, and the body, read as
    JSON, names the model. -/
theorem unload_request_read (hserialize : JsonWriter serialize) {baseUrl addr : String}
    (haddr : localAddr baseUrl = some addr) (model : String) (rest : List Char) :
    ∃ body,
      Http.read parseDigits (unloadRequest serialize addr model ++ rest) =
        some (⟨"POST".toList, "/api/generate".toList,
          [("Host".toList, addr.toList), ("Content-Type".toList, "application/json".toList),
            ("Content-Length".toList, (toString (Http.byteLength body)).toList),
            ("Connection".toList, "close".toList)], body⟩, rest) ∧
      readObject body = some ([("keep_alive", .number "0"), ("model", .string model), ("prompt", .string ""),
        ("stream", .bool false)], []) := by
  refine ⟨unloadBody serialize model, ?_, ?_⟩
  · rw [unloadRequest_eq]
    exact Http.read_write parseDigits (wellFormed_unloadHttp serialize haddr model) rest
  · rw [unloadBody_eq]
    refine readObject_serialize hserialize (List.cons_ne_nil _ _) ?_
    have hzero : Scalar (.number "0") := by
      refine ⟨by decide, fun c hc => ?_⟩
      obtain rfl := List.mem_singleton.mp (show c ∈ ['0'] from hc)
      rfl
    intro field hfield
    simp only [unloadFields, List.mem_cons, List.not_mem_nil, or_false] at hfield
    rcases hfield with rfl | rfl | rfl | rfl
    · exact hzero
    · trivial
    · trivial
    · trivial

/-- A name that tries to end the string, the body and the request. -/
def endsEverything : String := "m\"\x7d\r\n\r\nDELETE /api/delete HTTP/1.1"

theorem unload_request_read_injection : ∃ body,
    Http.read parseDigits (unloadRequest compactJson "localhost:11434" endsEverything ++ []) =
      some (⟨"POST".toList, "/api/generate".toList,
        [("Host".toList, "localhost:11434".toList), ("Content-Type".toList, "application/json".toList),
          ("Content-Length".toList, (toString (Http.byteLength body)).toList),
          ("Connection".toList, "close".toList)], body⟩, []) ∧
    readObject body = some ([("keep_alive", .number "0"), ("model", .string endsEverything),
      ("prompt", .string ""), ("stream", .bool false)], []) := by
  have haddr : localAddr "http://localhost:11434/v1" = some "localhost:11434" := by decide
  exact unload_request_read jsonWriter_compactJson haddr endsEverything []

end Ollama

end Tellm
