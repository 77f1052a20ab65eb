/-
  ENDPOINT: which base URLs `local_addr` takes for the local Ollama.

  The host is cut out at byte offsets and compared once its brackets are trimmed.  Trimming goes on as long
  as there are brackets, so what is compared does not say how many there were.

  1. **`splitHostPortAt`**, **`localAddrAt`**: the slices as the code makes them; none of them panics
     (`localAddrAt_eq`).
  2. **`bracketed`**: a name between brackets.  A host is trimmed to a name exactly if it is the name
     between some (`normalizedHost_eq_iff`), and the split leaves a host of that kind whole exactly if
     nothing opens it or one bracket closes it (`splitHostPort_bracketed`).
  3. **`localAddr_eq_some_iff`**: the addresses that are accepted.  `Misbracketed` are those beyond the three
     of the documentation.

  The program compares a host with three names, and splits host and port at the last colon, unless a
  bracket comes first.  Nothing in it checks that brackets are paired.  So besides `localhost`,
  `127.0.0.1` and `[::1]` the function takes these names with other brackets around them, and gives the
  bracketed text on as the address.

  `localAddr_documented_iff` is the exact statement: the function and the documentation agree on a base
  URL if and only if it is not one of the misbracketed ones, and these are described by their letters.
  The panics are ruled out for every string, also one that is no URL: the offsets that are sliced at were
  found in the same string.
-/
import Tellm.Tracking
import Tellm.Lib.Offsets

namespace Tellm.Ollama

open Text Offsets Substitutions

/-! ## The slices -/

/-- `split_host_port`, slice by slice: the outer option is a panic. -/
def splitHostPortAt (authority : List Char) : Option (Option (List Char × List Char)) :=
  match authority with
  | '[' :: rest =>
    match find [']'] rest with
    | none => some none
    | some closing => do
      let host ← getTo (closing + 2) authority
      let afterBracket ← sliceFrom (closing + 1) rest
      some ((stripPrefix afterBracket [':']).map fun port => (host, port))
  | _ => some (rsplitOnce authority ':')

/-- `local_addr` with these slices. -/
def localAddrAt (baseUrl : String) : Option (Option String) :=
  match stripPrefix baseUrl.toList "http://".toList with
  | none => some none
  | some rest => do
    let parts ← splitHostPortAt (rest.takeWhile (· != '/'))
    some (parts.bind fun (host, port) =>
      if port ≠ "11434".toList then none
      else if ["localhost", "127.0.0.1", "::1"].contains (String.ofList (normalizedHost host)) then
        some (String.ofList (host ++ ':' :: port))
      else none)

theorem splitHostPortAt_eq (authority : List Char) :
    splitHostPortAt authority = some (splitHostPort authority) := by
  unfold splitHostPortAt
  split
  · rename_i rest
    rw [splitHostPort, find, splitAround_char]
    cases hsplit : splitOnce rest ']' with
    | none => rfl
    | some parts =>
      obtain ⟨address, afterBracket⟩ := parts
      have hrest : rest = address ++ ']' :: afterBracket := (splitOnce_eq_some.mp hsplit).1
      have hopening : ('[').utf8Size = 1 := rfl
      have hclosing : (']').utf8Size = 1 := rfl
      -- both offsets are just behind the bracket that closes
      have hhost : getTo (byteCount address + 2) ('[' :: rest) = some ('[' :: address ++ [']']) := by
        have hcount : byteCount ('[' :: address ++ [']']) = byteCount address + 2 := by
          rw [List.cons_append, byteCount_cons, byteCount_append, byteCount_cons, byteCount_nil, hopening,
            hclosing]
          omega
        have hwhole : '[' :: rest = ('[' :: address ++ [']']) ++ afterBracket := by
          rw [hrest]
          simp
        rw [hwhole, ← hcount, getTo_append]
      have hafter : sliceFrom (byteCount address + 1) rest = some afterBracket := by
        have hwhole : rest = (address ++ [']']) ++ afterBracket := by
          rw [hrest]
          simp
        refine sliceFrom_of hwhole ?_
        rw [byteCount_append, byteCount_cons, byteCount_nil, hclosing]
      show (getTo (byteCount address + 2) ('[' :: rest)).bind _ = _
      rw [hhost]
      show (sliceFrom (byteCount address + 1) rest).bind _ = _
      rw [hafter]
      show some ((stripPrefix afterBracket [':']).map _) = some ((stripPrefix afterBracket [':']).bind _)
      cases stripPrefix afterBracket [':'] <;> rfl
  · rename_i hother
    unfold splitHostPort
    split
    · exact absurd rfl (hother _)
    · rfl

/-- **No slice panics**: the function on byte offsets, where a slice off a character boundary is `none`,
    always has a result, and it is that of the function on characters. -/
theorem localAddrAt_eq (baseUrl : String) : localAddrAt baseUrl = some (localAddr baseUrl) := by
  unfold localAddrAt localAddr
  cases stripPrefix baseUrl.toList "http://".toList with
  | none => rfl
  | some rest =>
    show (splitHostPortAt (rest.takeWhile (· != '/'))).bind _ = _
    rw [splitHostPortAt_eq]
    rfl

/-! ## Names between brackets -/

/-- The names that `local_addr` compares with. -/
def localNames : List (List Char) := ["localhost".toList, "127.0.0.1".toList, "::1".toList]

/-- A host between some brackets. -/
def bracketed (opening : Nat) (name : List Char) (closing : Nat) : List Char :=
  List.replicate opening '[' ++ name ++ List.replicate closing ']'

/-- A name without brackets. -/
structure Bare (name : List Char) : Prop where
  ne_nil : name ≠ []
  noOpening : '[' ∉ name
  noClosing : ']' ∉ name

theorem bare_of_mem {name : List Char} (h : name ∈ localNames) : Bare name := by
  have hall : ∀ name ∈ localNames, name ≠ [] ∧ '[' ∉ name ∧ ']' ∉ name := by decide
  obtain ⟨hne, hopening, hclosing⟩ := hall name h
  exact ⟨hne, hopening, hclosing⟩

/-- What is trimmed at the start is a run of the character. -/
theorem eq_replicate_append_dropWhile (c : Char) (text : List Char) :
    ∃ n, text = List.replicate n c ++ text.dropWhile (· == c) := by
  have hrun : text.takeWhile (· == c) = List.replicate (text.takeWhile (· == c)).length c :=
    List.eq_replicate_of_mem fun d hd => by simpa using List.mem_takeWhile_imp hd
  exact ⟨_, by rw [← hrun, List.takeWhile_append_dropWhile]⟩

section

variable {name : List Char} (hname : Bare name)
include hname

theorem normalizedHost_bracketed (opening closing : Nat) :
    normalizedHost (bracketed opening name closing) = name := by
  have htrim : ∀ (c : Char) (n : Nat) (text : List Char), c ∉ text → text ≠ [] → ∀ more,
      (List.replicate n c ++ text ++ more).dropWhile (· == c) = text ++ more := by
    intro c n text hc hne more
    cases text with
    | nil => exact absurd rfl hne
    | cons d text =>
      obtain ⟨hd, -⟩ := not_or.mp fun hmem => hc (List.mem_cons.mpr hmem)
      rw [List.append_assoc, List.dropWhile_append_of_pos (by simp), List.cons_append,
        List.dropWhile_cons_of_neg (by simpa using Ne.symm hd)]
  rw [normalizedHost, bracketed, htrim '[' opening name hname.noOpening hname.ne_nil, List.reverse_append,
    List.reverse_replicate]
  have hback := htrim ']' closing name.reverse (fun h => hname.noClosing (List.mem_reverse.mp h))
    (fun h => hname.ne_nil (List.reverse_eq_nil_iff.mp h)) []
  rw [List.append_nil, List.append_nil] at hback
  rw [hback, List.reverse_reverse]

/-- **Trimmed to the name**: what is left of a host is the name exactly when the host is the name between any
    number of brackets, as many or as few on either side. -/
theorem normalizedHost_eq_iff {host : List Char} :
    normalizedHost host = name ↔ ∃ opening closing, host = bracketed opening name closing := by
  constructor
  · rintro rfl
    obtain ⟨opening, hopening⟩ := eq_replicate_append_dropWhile '[' host
    obtain ⟨closing, hclosing⟩ := eq_replicate_append_dropWhile ']' (host.dropWhile (· == '[')).reverse
    refine ⟨opening, closing, ?_⟩
    have hback := congrArg List.reverse hclosing
    rw [List.reverse_reverse, List.reverse_append, List.reverse_replicate] at hback
    rw [bracketed, normalizedHost, List.append_assoc, ← hback]
    exact hopening
  · rintro ⟨opening, closing, rfl⟩
    exact normalizedHost_bracketed hname opening closing

theorem count_opening (opening closing : Nat) : (bracketed opening name closing).count '[' = opening := by
  rw [bracketed, List.count_append, List.count_append, List.count_replicate_self,
    List.count_eq_zero.mpr hname.noOpening, List.count_replicate]
  simp

theorem count_closing (opening closing : Nat) : (bracketed opening name closing).count ']' = closing := by
  rw [bracketed, List.count_append, List.count_append, List.count_replicate_self,
    List.count_eq_zero.mpr hname.noClosing, List.count_replicate]
  simp

theorem bracketed_inj {name' : List Char} (hname' : Bare name') {opening closing opening' closing' : Nat}
    (h : bracketed opening name closing = bracketed opening' name' closing') :
    name = name' ∧ opening = opening' ∧ closing = closing' := by
  refine ⟨?_, ?_, ?_⟩
  · rw [← normalizedHost_bracketed hname opening closing, h, normalizedHost_bracketed hname']
  · rw [← count_opening hname opening closing, h, count_opening hname']
  · rw [← count_closing hname opening closing, h, count_closing hname']

end

/-! ## The split -/

theorem rsplitOnce_append {after : List Char} {separator : Char} (h : separator ∉ after)
    (before : List Char) :
    rsplitOnce (before ++ separator :: after) separator = some (before, after) := by
  have hreverse : (before ++ separator :: after).reverse = after.reverse ++ separator :: before.reverse := by
    simp
  rw [rsplitOnce, hreverse, splitOnce_eq_some.mpr ⟨rfl, fun hmem => h (List.mem_reverse.mp hmem)⟩]
  simp

/-- A host that opens with a bracket closes with the first that closes. -/
theorem splitHostPort_eq_some_iff {authority host port : List Char} (hport : ':' ∉ port) :
    splitHostPort authority = some (host, port) ↔ authority = host ++ ':' :: port ∧
      ((∃ address, host = '[' :: address ++ [']'] ∧ ']' ∉ address) ∨ authority.head? ≠ some '[') := by
  constructor
  · intro h
    refine ⟨splitHostPort_eq_some h, ?_⟩
    unfold splitHostPort at h
    split at h
    · -- an opening bracket: the host ends with the first that closes
      obtain ⟨⟨address, afterBracket⟩, hsplit, h⟩ := Option.bind_eq_some_iff.mp h
      obtain ⟨port', -, hparts⟩ := Option.bind_eq_some_iff.mp h
      obtain ⟨rfl, -⟩ := Prod.mk.inj (Option.some.inj hparts)
      exact Or.inl ⟨address, rfl, (splitOnce_eq_some.mp hsplit).2⟩
    · rename_i hother
      refine Or.inr fun hhead => ?_
      obtain ⟨rest, rfl⟩ := List.head?_eq_some_iff.mp hhead
      exact hother _ rfl
  · rintro ⟨rfl, ⟨address, rfl, haddress⟩ | hhead⟩
    · have hwhole : '[' :: address ++ [']'] ++ ':' :: port = '[' :: (address ++ ']' :: ':' :: port) := by simp
      have hsplit : splitOnce (address ++ ']' :: ':' :: port) ']' = some (address, ':' :: port) :=
        splitOnce_eq_some.mpr ⟨rfl, haddress⟩
      have hstrip : stripPrefix (':' :: port) [':'] = some port := stripPrefix_eq_some.mpr rfl
      show splitHostPort ('[' :: address ++ [']'] ++ ':' :: port) = _
      rw [hwhole, splitHostPort, hsplit]
      show (stripPrefix (':' :: port) [':']).bind (fun port => some ('[' :: address ++ [']'], port)) = _
      rw [hstrip]
      rfl
    · unfold splitHostPort
      split
      · exact absurd (congrArg List.head? ‹_›) hhead
      · exact rsplitOnce_append hport host

/-- **The split leaves a name between brackets whole** if nothing opens it or one bracket closes it. -/
theorem splitHostPort_bracketed {name : List Char} (hname : Bare name) {opening closing : Nat}
    {port : List Char} (hport : ':' ∉ port) :
    splitHostPort (bracketed opening name closing ++ ':' :: port) =
      some (bracketed opening name closing, port) ↔
      opening = 0 ∨ closing = 1 := by
  rw [splitHostPort_eq_some_iff hport]
  constructor
  · rintro ⟨-, ⟨address, haddress, hno⟩ | hhead⟩
    · -- the one bracket that closes is the last
      have hcount := congrArg (List.count ']') haddress
      rw [count_closing hname, List.cons_append, List.count_cons, List.count_append,
        List.count_eq_zero.mpr hno] at hcount
      exact Or.inr (by simpa using hcount)
    · cases opening with
      | zero => exact Or.inl rfl
      | succ opening => exact absurd rfl hhead
  · intro h
    refine ⟨rfl, ?_⟩
    cases opening with
    | zero =>
      refine Or.inr fun hhead => ?_
      obtain ⟨c, rest, hrest⟩ := List.exists_cons_of_ne_nil hname.ne_nil
      rw [bracketed, hrest] at hhead
      have hc : c = '[' := Option.some.inj hhead
      exact hname.noOpening (by rw [hrest, hc]; exact List.mem_cons_self)
    | succ opening =>
      obtain rfl : closing = 1 := by omega
      refine Or.inl ⟨List.replicate opening '[' ++ name, ?_, ?_⟩
      · simp [bracketed, List.replicate_succ]
      · rw [List.mem_append]
        rintro (hmem | hmem)
        · exact absurd (List.eq_of_mem_replicate hmem) (by decide)
        · exact hname.noClosing hmem

/-! ## What is accepted -/

/-- The base URL is `http://`, the authority, and a rest that is empty or starts with a slash. -/
def Addresses (baseUrl : String) (authority : List Char) : Prop :=
  ∃ rest, baseUrl.toList = "http://".toList ++ authority ++ rest ∧ (rest = [] ∨ rest.head? = some '/')

/-- The authority of a local name between brackets. -/
def localAuthority (opening : Nat) (name : List Char) (closing : Nat) : List Char :=
  bracketed opening name closing ++ ':' :: "11434".toList

theorem slash_not_mem {name : List Char} (h : name ∈ localNames) (opening closing : Nat) :
    '/' ∉ localAuthority opening name closing := by
  have hall : ∀ name ∈ localNames, '/' ∉ name := by decide
  unfold localAuthority bracketed
  simp only [List.mem_append, not_or]
  refine ⟨⟨⟨fun hmem => ?_, hall name h⟩, fun hmem => ?_⟩, by decide⟩
  · exact absurd (List.eq_of_mem_replicate hmem) (by decide)
  · exact absurd (List.eq_of_mem_replicate hmem) (by decide)

/-- The authority of a base URL goes up to the first slash. -/
theorem takeWhile_authority {authority rest : List Char} (h : '/' ∉ authority)
    (hrest : rest = [] ∨ rest.head? = some '/') : (authority ++ rest).takeWhile (· != '/') = authority := by
  have hall : ∀ c ∈ authority, (c != '/') = true := by
    intro c hc
    simp only [bne_iff_ne, ne_eq]
    rintro rfl
    exact h hc
  rw [List.takeWhile_append_of_pos hall]
  rcases hrest with rfl | hhead
  · simp
  · obtain ⟨path, rfl⟩ := List.head?_eq_some_iff.mp hhead
    rw [List.takeWhile_cons_of_neg (by simp), List.append_nil]

/-- **The accepted addresses**: a local name between brackets, where nothing opens it or one bracket closes
    it. -/
theorem localAddr_eq_some_iff {baseUrl addr : String} :
    localAddr baseUrl = some addr ↔ Addresses baseUrl addr.toList ∧
      ∃ name ∈ localNames, ∃ opening closing, addr.toList = localAuthority opening name closing ∧
        (opening = 0 ∨ closing = 1) := by
  have hport : ':' ∉ "11434".toList := by decide
  constructor
  · intro h
    obtain ⟨path, hurl, hpath, -⟩ := localAddr_eq_some h
    refine ⟨⟨path, hurl, hpath⟩, ?_⟩
    obtain ⟨rest, -, h⟩ := Option.bind_eq_some_iff.mp h
    obtain ⟨⟨host, port⟩, hsplit, h⟩ := Option.bind_eq_some_iff.mp h
    dsimp only at h
    split at h
    · cases h
    · rename_i heq
      obtain rfl := not_not.mp heq
      split at h
      · rename_i hcontains
        obtain rfl := Option.some.inj h
        -- what is left between the brackets is one of the names
        obtain ⟨name, hname, hnormalized⟩ : ∃ name ∈ localNames, normalizedHost host = name := by
          refine ⟨_, ?_, rfl⟩
          have hmem := List.mem_map_of_mem (f := String.toList) (List.contains_iff_mem.mp hcontains)
          rw [String.toList_ofList] at hmem
          exact hmem
        obtain ⟨opening, closing, rfl⟩ := (normalizedHost_eq_iff (bare_of_mem hname)).mp hnormalized
        refine ⟨name, hname, opening, closing, String.toList_ofList, ?_⟩
        rw [splitHostPort_eq_some hsplit] at hsplit
        exact (splitHostPort_bracketed (bare_of_mem hname) hport).mp hsplit
      · cases h
  · rintro ⟨⟨rest, hurl, hrest⟩, name, hname, opening, closing, haddr, hbrackets⟩
    have hbare := bare_of_mem hname
    rw [haddr] at hurl
    have hstrip : stripPrefix baseUrl.toList "http://".toList =
        some (localAuthority opening name closing ++ rest) :=
      stripPrefix_eq_some.mpr (by rw [hurl, List.append_assoc])
    -- the name between its brackets passes the test
    have hlocal : ["localhost", "127.0.0.1", "::1"].contains
        (String.ofList (normalizedHost (bracketed opening name closing))) = true := by
      have hall : ∀ name ∈ localNames,
          ["localhost", "127.0.0.1", "::1"].contains (String.ofList name) = true := by
        decide
      rw [normalizedHost_bracketed hbare]
      exact hall name hname
    unfold localAddr
    rw [hstrip]
    show (splitHostPort _).bind _ = _
    rw [takeWhile_authority (slash_not_mem hname opening closing) hrest, localAuthority,
      (splitHostPort_bracketed hbare hport).mpr hbrackets]
    show (if _ then _ else _) = _
    rw [if_pos hlocal]
    have hback : addr = String.ofList addr.toList := String.ofList_toList.symm
    rw [hback, haddr]
    rfl

/-! ## The documented endpoints -/

/-- The three endpoints that the documents name, as addresses. -/
def localEndpoints : List String := ["localhost:11434", "127.0.0.1:11434", "[::1]:11434"]

/-- The base URL is one of a documented endpoint, and the address is that endpoint's. -/
def Documented (baseUrl addr : String) : Prop := addr ∈ localEndpoints ∧ Addresses baseUrl addr.toList

/-- The brackets on each side that a URL has around the name: one around an IPv6 address. -/
def ownBrackets (name : List Char) : Nat := if name = "::1".toList then 1 else 0

/-- A local name between other brackets than its own, in one of the two shapes that the split leaves whole:
    nothing opens it and any number close it, or any number open it and one closes it. -/
def Misbracketed (baseUrl : String) : Prop :=
  ∃ name ∈ localNames, ∃ opening closing, Addresses baseUrl (localAuthority opening name closing) ∧
    (opening = 0 ∨ closing = 1) ∧ ¬ (opening = ownBrackets name ∧ closing = ownBrackets name)

theorem mem_localEndpoints {addr : String} : addr ∈ localEndpoints ↔
    ∃ name ∈ localNames, addr.toList = localAuthority (ownBrackets name) name (ownBrackets name) := by
  have hnames : localNames.map
    (fun name => String.ofList (localAuthority (ownBrackets name) name (ownBrackets name))) =
      localEndpoints := by decide
  rw [← hnames, List.mem_map]
  refine exists_congr fun name => and_congr_right fun _ => ⟨?_, fun h => ?_⟩
  · rintro rfl
    exact String.toList_ofList
  · rw [← h, String.ofList_toList]

/-- What is documented is accepted. -/
theorem localAddr_of_documented {baseUrl addr : String} (h : Documented baseUrl addr) :
    localAddr baseUrl = some addr := by
  obtain ⟨hmem, haddresses⟩ := h
  obtain ⟨name, hname, haddr⟩ := mem_localEndpoints.mp hmem
  have hown : ownBrackets name = 0 ∨ ownBrackets name = 1 := by
    unfold ownBrackets
    split
    · exact Or.inr rfl
    · exact Or.inl rfl
  exact localAddr_eq_some_iff.mpr ⟨haddresses, name, hname, _, _, haddr, hown⟩

/-- So is what is misbracketed. -/
theorem Misbracketed.accepted {baseUrl : String} (h : Misbracketed baseUrl) :
    ∃ addr, localAddr baseUrl = some addr ∧ addr ∉ localEndpoints := by
  obtain ⟨name, hname, opening, closing, haddresses, hbrackets, hother⟩ := h
  refine ⟨String.ofList (localAuthority opening name closing), localAddr_eq_some_iff.mpr
    ⟨by rwa [String.toList_ofList], name, hname, opening, closing, String.toList_ofList, hbrackets⟩,
      fun hmem => ?_⟩
  obtain ⟨name', hname', hown⟩ := mem_localEndpoints.mp hmem
  rw [String.toList_ofList] at hown
  obtain ⟨rfl, hopening, hclosing⟩ :=
    bracketed_inj (bare_of_mem hname) (bare_of_mem hname') (List.append_cancel_right hown)
  exact hother ⟨hopening, hclosing⟩

/-- **`local_addr`** never panics; it accepts exactly the documented endpoints of a base URL if and only
    if the base URL is not misbracketed; and then every base URL without one is left alone. -/
theorem localAddr_documented_iff (baseUrl : String) :
    localAddrAt baseUrl = some (localAddr baseUrl) ∧
    ((∀ addr, localAddr baseUrl = some addr ↔ Documented baseUrl addr) ↔ ¬ Misbracketed baseUrl) ∧
    (¬ Misbracketed baseUrl → (∀ addr, ¬ Documented baseUrl addr) →
      ∀ (ready : Result Unit) (model : String) (outcome : HttpOutcome) (state : OllamaState)
        (response : Except (List Char) (List Char)),
        ensureReady baseUrl ready = .ok () ∧ requireVisionCapability baseUrl model outcome = ([], .ok ()) ∧
        state.rememberModel baseUrl model = state ∧
        unloadModel ⟨baseUrl, model⟩ response =
          .error ("not a local Ollama endpoint: ".toList ++ baseUrl.toList)) := by
  have hiff : (∀ addr, localAddr baseUrl = some addr ↔ Documented baseUrl addr) ↔ ¬ Misbracketed baseUrl := by
    constructor
    · intro h hbrackets
      obtain ⟨addr, haccepted, hunlisted⟩ := hbrackets.accepted
      exact hunlisted ((h addr).mp haccepted).1
    · intro h addr
      refine ⟨fun haccepted => ?_, localAddr_of_documented⟩
      obtain ⟨haddresses, name, hname, opening, closing, haddr, hbrackets⟩ :=
        localAddr_eq_some_iff.mp haccepted
      have hown : opening = ownBrackets name ∧ closing = ownBrackets name := by
        by_contra hother
        exact h ⟨name, hname, opening, closing, haddr ▸ haddresses, hbrackets, hother⟩
      obtain ⟨rfl, rfl⟩ := hown
      exact ⟨mem_localEndpoints.mpr ⟨name, hname, haddr⟩, haddresses⟩
  refine ⟨localAddrAt_eq baseUrl, hiff, fun hbrackets hnone ready model outcome state response => ?_⟩
  have hlocal : localAddr baseUrl = none :=
    Option.eq_none_iff_forall_ne_some.mpr fun addr haddr => hnone addr ((hiff.mpr hbrackets addr).mp haddr)
  simp only [ensureReady, requireVisionCapability, OllamaState.rememberModel, unloadModel, hlocal, and_self]

/-- Another port is another server. -/
theorem localAddr_documented_iff_elsewhere :
    ∀ state : OllamaState, state.rememberModel "http://localhost:8080/v1" "m" = state := by
  intro state
  have hnone : localAddr "http://localhost:8080/v1" = none := by decide
  have hbrackets : ¬ Misbracketed "http://localhost:8080/v1" := by
    intro h
    obtain ⟨addr, haccepted, -⟩ := h.accepted
    rw [hnone] at haccepted
    cases haccepted
  have hdocumented : ∀ addr, ¬ Documented "http://localhost:8080/v1" addr := by
    intro addr h
    have haccepted := localAddr_of_documented h
    rw [hnone] at haccepted
    cases haccepted
  exact ((localAddr_documented_iff _).2.2 hbrackets hdocumented (.ok ()) "m" (.error "") state
    (.error [])).2.2.1

/-- A name in brackets and an IPv6 address without them are taken for local endpoints. -/
theorem localAddr_misbracketed :
    (¬ ∀ addr, localAddr "http://[localhost]:11434/v1" = some addr ↔
      Documented "http://[localhost]:11434/v1" addr) ∧
    ¬ ∀ addr, localAddr "http://::1:11434/v1" = some addr ↔ Documented "http://::1:11434/v1" addr := by
  constructor
  · intro h
    have hlisted := ((h "[localhost]:11434").mp (by decide)).1
    exact absurd hlisted (by decide)
  · intro h
    have hlisted := ((h "::1:11434").mp (by decide)).1
    exact absurd hlisted (by decide)

end Tellm.Ollama
