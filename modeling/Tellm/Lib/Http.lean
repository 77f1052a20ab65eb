/-
  HTTP/1.1 REQUESTS as text: written by hand, read back by the rules of the protocol.

  A program that writes a request into a socket promises that what arrives is that one request: no part of
  it may end a line, or the message, early.

  1. **`Request.write`**: request line, header lines, an empty line, the body.
  2. **`read`**: a line ends at its CRLF, the header lines at the first empty one, and the body has as many
     bytes as Content-Length says.  What comes after it is left.
  3. **`read_write`**: a request whose parts keep to their lines is read back, and nothing else is.

  The writer and the reader are not inverse by construction: the reader splits at the first CRLF and knows
  nothing of how many headers there will be, takes the first Content-Length there is, and counts bytes.
  So `read_write` asks of a request that its parts have no carriage return, no blank in the method and the
  target, no colon in a header's name and no blank at the head of its value, and that Content-Length gives
  the length of the body (`Request.WellFormed`).

  Text is a list of characters, and its length in bytes that of its UTF-8 form.
-/
import Tellm.Lib.Substitution

namespace Http

open Substitutions

/-- A request with its header lines in order. -/
structure Request where
  method : List Char
  target : List Char
  headers : List (List Char × List Char)
  body : List Char
  deriving DecidableEq

/-- The end of a line. -/
def crlf : List Char := ['\r', '\n']

/-- The version in the first line. -/
def version : List Char := "HTTP/1.1".toList

/-- The length of a text in bytes. -/
def byteLength (text : List Char) : Nat := (text.map Char.utf8Size).sum

/-! ## Writing -/

/-- A header, without the end of its line. -/
def headerLine (header : List Char × List Char) : List Char := header.1 ++ ':' :: ' ' :: header.2

/-- The first line of a request, without its end. -/
def Request.requestLine (self : Request) : List Char := self.method ++ ' ' :: self.target ++ ' ' :: version

/-- The headers, and the empty line behind them. -/
def writeHeaders : List (List Char × List Char) → List Char
  | [] => crlf
  | header :: headers => headerLine header ++ crlf ++ writeHeaders headers

/-- A request as it is sent. -/
def Request.write (self : Request) : List Char :=
  self.requestLine ++ crlf ++ writeHeaders self.headers ++ self.body

/-! ## Reading -/

/-- A line up to its CRLF, and what follows it. -/
def readLine (text : List Char) : Option (List Char × List Char) := splitAround crlf text

/-- The name, and the value without the blanks before it. -/
def readHeader (line : List Char) : Option (List Char × List Char) :=
  (splitAround [':'] line).map fun parts => (parts.1, parts.2.dropWhile (· == ' '))

/-- The header lines up to the empty one; there are at most `fuel` lines. -/
def readHeaders : Nat → List Char → Option (List (List Char × List Char) × List Char)
  | 0, _ => none
  | fuel + 1, text =>
    (readLine text).bind fun (line, rest) =>
      if line.isEmpty then some ([], rest)
      else
        (readHeader line).bind fun header =>
          (readHeaders fuel rest).map fun (headers, rest) => (header :: headers, rest)

/-- A first line taken apart again: its method and its target. -/
def readRequestLine (line : List Char) : Option (List Char × List Char) :=
  (splitAround [' '] line).bind fun (method, rest) =>
    (splitAround [' '] rest).bind fun (target, protocol) =>
      if protocol = version then some (method, target) else none

/-- The first `n` bytes, where a character ends there. -/
def takeBytes : Nat → List Char → Option (List Char × List Char)
  | 0, text => some ([], text)
  | _ + 1, [] => none
  | n + 1, c :: text =>
    if c.utf8Size ≤ n + 1 then
      (takeBytes (n + 1 - c.utf8Size) text).map fun (taken, rest) => (c :: taken, rest)
    else none

variable (parseLength : List Char → Option Nat)

/-- How many bytes the body has. -/
def contentLength (headers : List (List Char × List Char)) : Option Nat :=
  (headers.lookup "Content-Length".toList).bind parseLength

/-- A request at the start of a text, and what follows it. -/
def read (text : List Char) : Option (Request × List Char) :=
  (readLine text).bind fun (line, rest) =>
    (readRequestLine line).bind fun (method, target) =>
      (readHeaders rest.length rest).bind fun (headers, rest) =>
        (contentLength parseLength headers).bind fun n =>
          (takeBytes n rest).map fun (body, rest) => (⟨method, target, headers, body⟩, rest)

/-! ## Reading what was written -/

/-- The text keeps to its line. -/
def OneLine (text : List Char) : Prop := '\r' ∉ text

instance (text : List Char) : Decidable (OneLine text) := inferInstanceAs (Decidable ('\r' ∉ text))

/-- A header that can be written on a line of its own. -/
structure WellFormed (header : List Char × List Char) : Prop where
  name : OneLine header.1
  noColon : ':' ∉ header.1
  value : OneLine header.2
  noBlank : header.2.head? ≠ some ' '

/-- A request whose parts keep to their places. -/
structure Request.WellFormed (request : Request) : Prop where
  method : OneLine request.method ∧ ' ' ∉ request.method
  target : OneLine request.target ∧ ' ' ∉ request.target
  headers : ∀ header ∈ request.headers, Http.WellFormed header
  length : contentLength parseLength request.headers = some (byteLength request.body)

/-- A pattern is found right after a text in which its first symbol does not occur. -/
theorem splitAround_append {α : Type} [DecidableEq α] {first : α} {pattern text : List α} (h : first ∉ text)
    (rest : List α) :
    splitAround (first :: pattern) (text ++ first :: pattern ++ rest) = some (text, rest) := by
  induction text with
  | nil => exact splitAround_of_some (dropPattern_append (first :: pattern) rest)
  | cons c text ih =>
    obtain ⟨hc, htext⟩ := not_or.mp (mt List.mem_cons.mpr h)
    have hnone : dropPattern (first :: pattern) (c :: (text ++ first :: pattern ++ rest)) = none :=
      dropPattern_cons_ne (Ne.symm hc) pattern _
    rw [List.cons_append, List.cons_append, splitAround_cons hnone, ih htext]
    rfl

theorem readLine_append {line : List Char} (h : OneLine line) (rest : List Char) :
    readLine (line ++ crlf ++ rest) = some (line, rest) := splitAround_append h rest

theorem readHeader_headerLine {header : List Char × List Char} (h : WellFormed header) :
    readHeader (headerLine header) = some header := by
  have hsplit : splitAround [':'] (headerLine header) = some (header.1, ' ' :: header.2) := by
    rw [headerLine, List.append_cons]
    exact splitAround_append h.noColon (' ' :: header.2)
  have hvalue : (' ' :: header.2).dropWhile (· == ' ') = header.2 := by
    rw [List.dropWhile_cons_of_pos rfl]
    cases hheader : header.2 with
    | nil => rfl
    | cons c value =>
      have hc : c ≠ ' ' := fun hc => h.noBlank (by rw [hheader, hc]; rfl)
      exact List.dropWhile_cons_of_neg (by simpa using hc)
  rw [readHeader, hsplit, Option.map_some, hvalue]

theorem oneLine_headerLine {header : List Char × List Char} (h : WellFormed header) :
    OneLine (headerLine header) := by
  intro hmem
  rcases List.mem_append.mp hmem with hmem | hmem
  · exact h.name hmem
  · rcases List.mem_cons.mp hmem with hmem | hmem
    · cases hmem
    · rcases List.mem_cons.mp hmem with hmem | hmem
      · cases hmem
      · exact h.value hmem

theorem readHeaders_write (headers : List (List Char × List Char)) (h : ∀ header ∈ headers, WellFormed header)
    {fuel : Nat} (hfuel : headers.length < fuel) (rest : List Char) :
    readHeaders fuel (writeHeaders headers ++ rest) = some (headers, rest) := by
  induction headers generalizing fuel with
  | nil =>
    obtain ⟨fuel, rfl⟩ := Nat.exists_eq_add_one.mpr hfuel
    have hline : readLine (crlf ++ rest) = some ([], rest) := readLine_append List.not_mem_nil rest
    rw [writeHeaders, readHeaders, hline]
    rfl
  | cons header headers ih =>
    obtain ⟨fuel, rfl⟩ := Nat.exists_eq_add_one.mpr (Nat.zero_lt_of_lt hfuel)
    obtain ⟨hheader, hheaders⟩ := List.forall_mem_cons.mp h
    have hline : readLine (headerLine header ++ crlf ++ (writeHeaders headers ++ rest)) =
        some (headerLine header, writeHeaders headers ++ rest) :=
      readLine_append (oneLine_headerLine hheader) _
    have hne : (headerLine header).isEmpty = false := by
      rw [headerLine]
      cases header.1 <;> rfl
    rw [writeHeaders, readHeaders, List.append_assoc (headerLine header ++ crlf), hline, Option.bind_some]
    dsimp only
    rw [hne, readHeader_headerLine hheader, Option.bind_some, ih hheaders (Nat.lt_of_succ_lt_succ hfuel)]
    rfl

/-- There are no more header lines than characters. -/
theorem length_writeHeaders (headers : List (List Char × List Char)) :
    headers.length < (writeHeaders headers).length := by
  induction headers with
  | nil => decide
  | cons header headers ih =>
    rw [writeHeaders, List.length_append, List.length_append]
    have hcrlf : crlf.length = 2 := rfl
    rw [List.length_cons]
    omega

theorem takeBytes_append (body rest : List Char) :
    takeBytes (byteLength body) (body ++ rest) = some (body, rest) := by
  induction body with
  | nil => cases rest <;> rfl
  | cons c body ih =>
    have hlength : byteLength (c :: body) = c.utf8Size + byteLength body := by
      rw [byteLength, List.map_cons, List.sum_cons]
      rfl
    obtain ⟨size, hsize⟩ := Nat.exists_eq_add_one.mpr c.utf8Size_pos
    rw [hlength, hsize, Nat.add_right_comm, List.cons_append, takeBytes, hsize, if_pos (by omega)]
    rw [show size + byteLength body + 1 - (size + 1) = byteLength body by omega, ih]
    rfl

theorem readRequestLine_requestLine {request : Request} (h : request.WellFormed parseLength) :
    readRequestLine request.requestLine = some (request.method, request.target) := by
  have hmethod : splitAround [' '] request.requestLine =
      some (request.method, request.target ++ ' ' :: version) := by
    rw [Request.requestLine, List.append_assoc, List.cons_append, List.append_cons]
    exact splitAround_append h.method.2 _
  have htarget : splitAround [' '] (request.target ++ ' ' :: version) = some (request.target, version) := by
    rw [List.append_cons]
    exact splitAround_append h.target.2 _
  rw [readRequestLine, hmethod, Option.bind_some]
  dsimp only
  rw [htarget, Option.bind_some]
  exact if_pos rfl

/-- **A request is read back as it was written**, and what follows it is left. -/
theorem read_write {request : Request} (h : request.WellFormed parseLength) (rest : List Char) :
    read parseLength (request.write ++ rest) = some (request, rest) := by
  have hline : OneLine request.requestLine := by
    intro hmem
    rcases List.mem_append.mp hmem with hmem | hmem
    · rcases List.mem_append.mp hmem with hmem | hmem
      · exact h.method.1 hmem
      · rcases List.mem_cons.mp hmem with hmem | hmem
        · cases hmem
        · exact h.target.1 hmem
    · exact absurd hmem (by decide)
  have hrequest : readLine (request.write ++ rest) =
      some (request.requestLine, writeHeaders request.headers ++ (request.body ++ rest)) := by
    rw [Request.write, List.append_assoc, List.append_assoc (request.requestLine ++ crlf)]
    exact readLine_append hline _
  have hfuel : request.headers.length < (writeHeaders request.headers ++ (request.body ++ rest)).length := by
    rw [List.length_append]
    exact Nat.lt_add_right _ (length_writeHeaders request.headers)
  rw [read, hrequest, Option.bind_some]
  dsimp only
  rw [readRequestLine_requestLine parseLength h, Option.bind_some]
  dsimp only
  rw [readHeaders_write request.headers h.headers hfuel, Option.bind_some]
  dsimp only
  rw [h.length, Option.bind_some, takeBytes_append]
  rfl

end Http
