/-
  JSON SIZE: `approx_json_bytes` against the compact text that it estimates.

  The estimate and the text are sums over the same tree.  So both are split over the tree's NODES, and
  compared node by node.

  1. **`Value.nodes`**: every value inside a value.  What the claim counts (`trues`, `falses`, `containers`)
     and what it asks of strings (`EscapeFree`) are read off the list of nodes.
  2. **`CompactSerializer`**: what `serde_json::to_string` documents; `compactJson` is a function that
     does so.
  3. **Estimate**: `Saturates` says that a saturating sum is the true sum as long as that fits `usize`;
     the estimate of a value is the sum of `ownBytes` over its nodes (`saturates_approxJsonBytes`).
  4. **Text**: its length is the sum of `textBytes` over the nodes (`utf8ByteSize_serialize`).
  5. **Node by node** the two differ by one for a container, a `true` and a `false`, the last the other
     way (`ownBytes_textBytes`), which is all that the totals can differ by.

  The estimate takes a constant for each scalar, the byte count of each string with two quotes, and one
  for each bracket and separator.  For `true` and `false` the two constants are the wrong way round in the
  source, so a `true` counts one too many and a `false` one too few; and an array or object that is not
  empty counts a separator too many.  These are the only differences for values whose strings need no
  escapes.

  Splitting over nodes is what makes the proof short: the recursion over values is done once, for an
  arbitrary weight (`Value.total`), and both sums are instances of it.  The saturation is done once as
  well: below `usize::MAX` it has no effect, and the statement about the estimate includes the bound.
-/
import Tellm.Retained

namespace Tellm

open Runs

/-! ## The values inside a value -/

mutual

/-- The value and every value inside it. -/
def Value.nodes : Value → List Value
  | .null => [.null]
  | .bool value => [.bool value]
  | .number value => [.number value]
  | .string value => [.string value]
  | .array values => .array values :: elementNodes values
  | .object values => .object values :: fieldNodes values

/-- The nodes of an array's elements. -/
def elementNodes : List Value → List Value
  | [] => []
  | value :: values => value.nodes ++ elementNodes values

/-- The nodes of an object's values. -/
def fieldNodes : List (String × Value) → List Value
  | [] => []
  | (_, value) :: values => value.nodes ++ fieldNodes values

end

/-- The nodes of an array's elements are those of one after the other. -/
theorem elementNodes_eq (values : List Value) : elementNodes values = values.flatMap Value.nodes := by
  induction values with
  | nil => rfl
  | cons value values ih => rw [elementNodes, ih, List.flatMap_cons]

/-- The same for the fields of an object. -/
theorem fieldNodes_eq (values : List (String × Value)) :
    fieldNodes values = values.flatMap fun field => field.2.nodes := by
  induction values with
  | nil => rfl
  | cons field values ih => rw [fieldNodes, ih, List.flatMap_cons]

@[simp] theorem Value.nodes_array (values : List Value) :
    (Value.array values).nodes = .array values :: values.flatMap Value.nodes := by
  rw [Value.nodes, elementNodes_eq]

@[simp] theorem Value.nodes_object (values : List (String × Value)) :
    (Value.object values).nodes = .object values :: values.flatMap fun field => field.2.nodes := by
  rw [Value.nodes, fieldNodes_eq]

/-- The induction over a value, with its elements and fields as members of the lists. -/
@[elab_as_elim]
theorem Value.induction {motive : Value → Prop} (null : motive .null)
    (bool : ∀ value, motive (.bool value)) (number : ∀ value, motive (.number value))
    (string : ∀ value, motive (.string value))
    (array : ∀ values, (∀ value ∈ values, motive value) → motive (.array values))
    (object : ∀ values, (∀ field ∈ values, motive field.2) → motive (.object values)) :
    ∀ value, motive value
  | .null => null
  | .bool value => bool value
  | .number value => number value
  | .string value => string value
  | .array values => array values fun value hmem =>
      have : sizeOf value < sizeOf values := List.sizeOf_lt_of_mem hmem
      Value.induction null bool number string array object value
  | .object values => object values fun field hmem =>
      have : sizeOf field < sizeOf values := List.sizeOf_lt_of_mem hmem
      have : sizeOf field.2 < sizeOf field := by
        obtain ⟨key, value⟩ := field
        show sizeOf value < 1 + sizeOf key + sizeOf value
        omega
      Value.induction null bool number string array object field.2
  termination_by value => sizeOf value

/-- What the nodes of a value weigh. -/
def Value.total (weight : Value → Nat) (value : Value) : Nat := (value.nodes.map weight).sum

section

variable (weight : Value → Nat)

/-- A sum over all nodes may be taken value by value. -/
theorem sum_flatMap {α : Type} (nodes : α → List Value) (values : List α) :
    ((values.flatMap nodes).map weight).sum =
        (values.map fun value => ((nodes value).map weight).sum).sum := by
  induction values with
  | nil => rfl
  | cons value values ih =>
    rw [List.flatMap_cons, List.map_append, List.sum_append, ih, List.map_cons, List.sum_cons]

/-- The total of an array is its own weight and the totals of its elements. -/
theorem Value.total_array (values : List Value) :
    (Value.array values).total weight = weight (.array values) + (values.map (Value.total weight)).sum := by
  rw [Value.total, Value.nodes_array, List.map_cons, List.sum_cons, sum_flatMap]
  rfl

/-- The total of an object is its own weight and the totals of its fields' values. -/
theorem Value.total_object (values : List (String × Value)) :
    (Value.object values).total weight =
      weight (.object values) + (values.map fun field => field.2.total weight).sum := by
  rw [Value.total, Value.nodes_object, List.map_cons, List.sum_cons, sum_flatMap]
  rfl

end

/-- Weights that agree node by node, up to what each side adds, agree in total. -/
theorem Value.total_add {left right more less : Value → Nat} (value : Value)
    (h : ∀ node, left node + less node = right node + more node) :
    value.total left + value.total less = value.total right + value.total more := by
  unfold Value.total
  induction value.nodes with
  | nil => rfl
  | cons node nodes ih =>
    have hnode := h node
    simp only [List.map_cons, List.sum_cons]
    omega

/-! ## What is counted -/

/-- The node is the literal `true`. -/
def trueHere : Value → Nat
  | .bool true => 1
  | _ => 0

/-- The node is the literal `false`. -/
def falseHere : Value → Nat
  | .bool false => 1
  | _ => 0

/-- The node is an array or an object that is not empty. -/
def containerHere : Value → Nat
  | .array (_ :: _) => 1
  | .object (_ :: _) => 1
  | _ => 0

/-- How many times `true` stands in the value. -/
def trues (value : Value) : Nat := value.total trueHere

/-- How many times `false` stands in the value. -/
def falses (value : Value) : Nat := value.total falseHere

/-- Its non-empty arrays and objects, itself included. -/
def containers (value : Value) : Nat := value.total containerHere

/-- A character that JSON does not escape. -/
def PlainChar (c : Char) : Prop := c ≠ '"' ∧ c ≠ '\\' ∧ ' ' ≤ c

/-- Nothing in the text is escaped in JSON. -/
def PlainText (text : String) : Prop := ∀ c ∈ text.toList, PlainChar c

instance decidablePlainChar (c : Char) : Decidable (PlainChar c) := inferInstanceAs (Decidable (_ ∧ _ ∧ _))

instance decidablePlainText (text : String) : Decidable (PlainText text) := List.decidableBAll _ text.toList

/-- The node's own strings are plain. -/
def PlainNode : Value → Prop
  | .string text => PlainText text
  | .object values => ∀ field ∈ values, PlainText field.1
  | _ => True

instance decidablePlainNode : (node : Value) → Decidable (PlainNode node)
  | .null | .bool _ | .number _ | .array _ => isTrue trivial
  | .string text => decidablePlainText text
  | .object values => inferInstanceAs (Decidable (∀ field ∈ values, PlainText field.1))

/-- No string and no key has a character that JSON escapes. -/
def EscapeFree (value : Value) : Prop := ∀ node ∈ value.nodes, PlainNode node

instance decidableEscapeFree (value : Value) : Decidable (EscapeFree value) :=
  inferInstanceAs (Decidable (∀ node ∈ value.nodes, PlainNode node))

/-- What `approx_json_bytes` adds at a node itself. -/
def ownBytes : Value → Nat
  | .null => 4
  | .bool value => value.toNat + 4
  | .number value => value.utf8ByteSize
  | .string value => value.utf8ByteSize + 2
  | .array values => 2 + values.length
  | .object values => 2 + (values.map fun field => field.1.utf8ByteSize + 4).sum

/-- No addition of the estimate saturates: the last and greatest sum fits `usize`. -/
def Unsaturated (value : Value) : Prop := value.total ownBytes ≤ usizeMax

instance decidableUnsaturated (value : Value) : Decidable (Unsaturated value) :=
  inferInstanceAs (Decidable (_ ≤ _))

/-! ## The text -/

/-- What is relied on of `serde_json::to_string`: the compact form of each kind of value. -/
structure CompactSerializer (serialize : Value → String) : Prop where
  null : serialize .null = "null"
  bool : ∀ value, serialize (.bool value) = if value then "true" else "false"
  number : ∀ text, serialize (.number text) = text
  string : ∀ text, PlainText text → serialize (.string text) = "\"" ++ text ++ "\""
  array : ∀ values, serialize (.array values) = "[" ++ ",".intercalate (values.map serialize) ++ "]"
  object : ∀ values, serialize (.object values) = "\x7b" ++
    ",".intercalate (values.map fun field => serialize (.string field.1) ++ ":" ++ serialize field.2) ++
    "\x7d"

/-- The escapes of `serde_json`; a control character without a short one is written in hexadecimal. -/
def escapeJsonChar (c : Char) : List Char :=
  if c = '"' then ['\\', '"']
  else if c = '\\' then ['\\', '\\']
  else if c = '\x08' then ['\\', 'b']
  else if c = '\t' then ['\\', 't']
  else if c = '\n' then ['\\', 'n']
  else if c = '\x0c' then ['\\', 'f']
  else if c = '\r' then ['\\', 'r']
  else if c < ' ' then ['\\', 'u', '0', '0', Nat.digitChar (c.toNat / 16), Nat.digitChar (c.toNat % 16)]
  else [c]

/-- A string literal. -/
def quoteJson (text : String) : String := "\"" ++ String.ofList (text.toList.flatMap escapeJsonChar) ++ "\""

mutual

/-- The compact text of a value. -/
def compactJson : Value → String
  | .null => "null"
  | .bool value => if value then "true" else "false"
  | .number text => text
  | .string text => quoteJson text
  | .array values => "[" ++ ",".intercalate (compactElements values) ++ "]"
  | .object values => "\x7b" ++ ",".intercalate (compactFields values) ++ "\x7d"

/-- The elements of an array, serialised. -/
def compactElements : List Value → List String
  | [] => []
  | value :: values => compactJson value :: compactElements values

/-- The fields of an object, serialised. -/
def compactFields : List (String × Value) → List String
  | [] => []
  | (key, value) :: values => (quoteJson key ++ ":" ++ compactJson value) :: compactFields values

end

/-- The elements are put out one by one. -/
theorem compactElements_eq (values : List Value) : compactElements values = values.map compactJson := by
  induction values with
  | nil => rfl
  | cons value values ih => rw [compactElements, ih, List.map_cons]

/-- So are the fields, each with its key. -/
theorem compactFields_eq (values : List (String × Value)) :
    compactFields values = values.map fun field => quoteJson field.1 ++ ":" ++ compactJson field.2 := by
  induction values with
  | nil => rfl
  | cons field values ih => rw [compactFields, ih, List.map_cons]

/-- A plain character is put out as it is. -/
theorem escapeJsonChar_plain {c : Char} (h : PlainChar c) : escapeJsonChar c = [c] := by
  obtain ⟨hquote, hbackslash, hspace⟩ := h
  -- every other escape is of a character before the space
  have hne : ∀ d : Char, d < ' ' → c ≠ d := by
    rintro d hd rfl
    exact absurd hspace (not_le.mpr hd)
  unfold escapeJsonChar
  rw [if_neg hquote, if_neg hbackslash, if_neg (hne _ (by decide)), if_neg (hne _ (by decide)),
    if_neg (hne _ (by decide)), if_neg (hne _ (by decide)), if_neg (hne _ (by decide)),
    if_neg (not_lt.mpr hspace)]

/-- So is a plain text, in quotes. -/
theorem quoteJson_plain {text : String} (h : PlainText text) : quoteJson text = "\"" ++ text ++ "\"" := by
  have hflat : ∀ cs : List Char, (∀ c ∈ cs, PlainChar c) → cs.flatMap escapeJsonChar = cs := by
    intro cs hcs
    induction cs with
    | nil => rfl
    | cons c cs ih =>
      obtain ⟨hc, hcs⟩ := List.forall_mem_cons.mp hcs
      rw [List.flatMap_cons, escapeJsonChar_plain hc, ih hcs]
      rfl
  rw [quoteJson, hflat _ h, String.ofList_toList]

/-- The compact form that is written out here has all that is relied on. -/
theorem compactSerializer_compactJson : CompactSerializer compactJson where
  null := by rw [compactJson]
  bool value := by rw [compactJson]
  number text := by rw [compactJson]
  string text h := by rw [compactJson, quoteJson_plain h]
  array values := by rw [compactJson, compactElements_eq]
  object values := by
    rw [compactJson, compactFields_eq]
    simp only [compactJson]

/-! ## The estimate -/

/-- A saturating sum and the true sum. -/
structure Saturates (counted exact : Nat) : Prop where
  le : counted ≤ exact
  capped : min counted usizeMax = min exact usizeMax

namespace Saturates

variable {counted exact counted' exact' : Nat}

/-- A number saturates to itself, be it above the bound or not. -/
theorem refl (n : Nat) : Saturates n n := ⟨Nat.le_refl _, rfl⟩

/-- Saturating addition keeps the sum right up to the bound. -/
theorem add (h : Saturates counted exact) (h' : Saturates counted' exact') :
    Saturates (saturatingAdd counted counted') (exact + exact') := by
  obtain ⟨hle, hcapped⟩ := h
  obtain ⟨hle', hcapped'⟩ := h'
  unfold saturatingAdd
  exact ⟨by omega, by omega⟩

/-- Below the bound the saturating sum is the true one. -/
theorem eq_of_le (h : Saturates counted exact) (hexact : exact ≤ usizeMax) : counted = exact := by
  obtain ⟨hle, hcapped⟩ := h
  omega

/-- A saturating sum that is below the bound is the true one. -/
theorem eq_of_lt (h : Saturates counted exact) (hcounted : counted < usizeMax) : counted = exact := by
  obtain ⟨hle, hcapped⟩ := h
  omega

end Saturates

/-- The loop over the elements counts each with its separator, onto the sum that it is given. -/
theorem saturates_approxArrayBytes {values : List Value}
    (h : ∀ value ∈ values, Saturates (approxJsonBytes value) (value.total ownBytes)) {total exact : Nat}
    (htotal : Saturates total exact) : Saturates (approxArrayBytes values total)
      (exact + values.length + (values.map (Value.total ownBytes)).sum) := by
  induction values generalizing total exact with
  | nil => exact htotal
  | cons value values ih =>
    obtain ⟨hvalue, hvalues⟩ := List.forall_mem_cons.mp h
    have hnext := ih hvalues (htotal.add (hvalue.add (.refl 1)))
    rw [approxArrayBytes, List.map_cons, List.sum_cons, List.length_cons]
    convert hnext using 1
    omega

/-- The loop over the fields counts each with its key and its punctuation. -/
theorem saturates_approxObjectBytes {values : List (String × Value)}
    (h : ∀ field ∈ values, Saturates (approxJsonBytes field.2) (field.2.total ownBytes)) {total exact : Nat}
    (htotal : Saturates total exact) : Saturates (approxObjectBytes values total)
      (exact + (values.map fun field => field.1.utf8ByteSize + 4).sum +
        (values.map fun field => field.2.total ownBytes).sum) := by
  induction values generalizing total exact with
  | nil => exact htotal
  | cons field values ih =>
    obtain ⟨key, value⟩ := field
    obtain ⟨hvalue, hvalues⟩ := List.forall_mem_cons.mp h
    replace hvalue : Saturates (approxJsonBytes value) (value.total ownBytes) := hvalue
    have hkey : Saturates (saturatingAdd key.utf8ByteSize 3) (key.utf8ByteSize + 3) :=
      (Saturates.refl _).add (.refl 3)
    have hnext := ih hvalues ((htotal.add hkey).add (hvalue.add (.refl 1)))
    simp only [approxObjectBytes, List.map_cons, List.sum_cons]
    convert hnext using 1
    omega

/-- **The estimate** is the sum of the own bytes of all nodes, as far as `usize` reaches: it is that sum, or
    the largest number if the sum is larger. -/
theorem saturates_approxJsonBytes (value : Value) :
    Saturates (approxJsonBytes value) (value.total ownBytes) := by
  induction value using Value.induction with
  | null => exact .refl _
  | bool value => rw [approxJsonBytes]; exact .refl _
  | number value => rw [approxJsonBytes]; exact .refl _
  | string value =>
    rw [approxJsonBytes]
    exact (Saturates.refl _).add (.refl 2)
  | array values ih =>
    rw [approxJsonBytes, Value.total_array]
    exact saturates_approxArrayBytes ih (.refl 2)
  | object values ih =>
    rw [approxJsonBytes, Value.total_object]
    exact saturates_approxObjectBytes ih (.refl 2)

/-- The same for the items of a turn. -/
theorem saturates_turnBytes (turnItems : List Value) :
    Saturates (turnBytes turnItems) (turnItems.map (Value.total ownBytes)).sum := by
  have hfold : ∀ (items : List Value) {total exact : Nat}, Saturates total exact →
      Saturates (items.foldl (fun total value => saturatingAdd total (approxJsonBytes value)) total)
        (exact + (items.map (Value.total ownBytes)).sum) := by
    intro items
    induction items with
    | nil => exact fun htotal => htotal
    | cons value items ih =>
      intro total exact htotal
      rw [List.foldl_cons, List.map_cons, List.sum_cons, ← Nat.add_assoc]
      exact ih (htotal.add (saturates_approxJsonBytes value))
  have h := hfold turnItems (.refl 0)
  rw [Nat.zero_add] at h
  exact h

/-! ## The length of the text -/

/-- What the compact text has of a node itself: the separators stand between the elements only. -/
def textBytes : Value → Nat
  | .null => 4
  | .bool value => if value then 4 else 5
  | .number value => value.utf8ByteSize
  | .string value => value.utf8ByteSize + 2
  | .array values => 2 + (values.length - 1)
  | .object values => 2 + (values.length - 1) + (values.map fun field => field.1.utf8ByteSize + 3).sum

/-- Joined texts have the bytes of all of them, and a comma less than there are texts. -/
theorem utf8ByteSize_intercalate (texts : List String) :
    (",".intercalate texts).utf8ByteSize = (texts.length - 1) + (texts.map String.utf8ByteSize).sum := by
  have hcomma : (",").utf8ByteSize = 1 := by decide
  induction texts with
  | nil => rfl
  | cons text texts ih =>
    cases texts with
    | nil => rw [String.intercalate_singleton]; simp
    | cons next texts =>
      rw [String.intercalate_cons_cons, String.utf8ByteSize_append, String.utf8ByteSize_append, ih, hcomma]
      simp only [List.length_cons, List.map_cons, List.sum_cons]
      omega

/-- The text in a pair of marks of one byte each. -/
theorem utf8ByteSize_between {opening closing : String} (hopening : opening.utf8ByteSize = 1)
    (hclosing : closing.utf8ByteSize = 1) (text : String) :
    (opening ++ text ++ closing).utf8ByteSize = text.utf8ByteSize + 2 := by
  rw [String.utf8ByteSize_append, String.utf8ByteSize_append, hopening, hclosing]
  omega

section

variable {serialize : Value → String} (hserialize : CompactSerializer serialize)
include hserialize

/-- A plain string has its own bytes and two quotes. -/
theorem CompactSerializer.utf8ByteSize_string {text : String} (h : PlainText text) :
    (serialize (.string text)).utf8ByteSize = text.utf8ByteSize + 2 := by
  rw [hserialize.string text h, utf8ByteSize_between (by decide) (by decide)]

/-- **The text** of a value without escapes: its length is the sum over the nodes. -/
theorem utf8ByteSize_serialize (value : Value) :
    EscapeFree value → (serialize value).utf8ByteSize = value.total textBytes := by
  -- on the value; the separators of an array and of an object are one fewer than its elements
  induction value using Value.induction with
  | null =>
    intro _
    rw [hserialize.null]
    decide
  | bool value =>
    intro _
    rw [hserialize.bool]
    cases value <;> decide
  | number text =>
    intro _
    rw [hserialize.number]
    rfl
  | string text =>
    intro h
    exact hserialize.utf8ByteSize_string (h _ List.mem_cons_self)
  | array values ih =>
    intro h
    rw [EscapeFree, Value.nodes_array] at h
    have hvalues : values.map (fun value => (serialize value).utf8ByteSize) =
        values.map (Value.total textBytes) :=
        List.map_congr_left fun value hmem => ih value hmem fun node hnode =>
        h node (List.mem_cons_of_mem _ (List.mem_flatMap.mpr ⟨value, hmem, hnode⟩))
    rw [hserialize.array, utf8ByteSize_between (by decide) (by decide),
      utf8ByteSize_intercalate, List.length_map, List.map_map, Value.total_array, textBytes, ← hvalues,
      Function.comp_def]
    omega
  | object values ih =>
    intro h
    rw [EscapeFree, Value.nodes_object] at h
    have hkeys : ∀ field ∈ values, PlainText field.1 := h _ List.mem_cons_self
    have hfields :
        values.map (fun field => (serialize (.string field.1) ++ ":" ++ serialize field.2).utf8ByteSize) =
          values.map fun field => (field.1.utf8ByteSize + 3) + field.2.total textBytes := by
      refine List.map_congr_left fun field hmem => ?_
      have hvalue := ih field hmem fun node hnode =>
        h node (List.mem_cons_of_mem _ (List.mem_flatMap.mpr ⟨field, hmem, hnode⟩))
      have hcolon : (":").utf8ByteSize = 1 := by decide
      rw [String.utf8ByteSize_append, String.utf8ByteSize_append, hcolon, hvalue,
        hserialize.utf8ByteSize_string (hkeys field hmem)]
    rw [hserialize.object, utf8ByteSize_between (by decide) (by decide),
      utf8ByteSize_intercalate, List.length_map, List.map_map, Value.total_object, textBytes,
      Function.comp_def, hfields, List.sum_map_add]
    omega

end

/-! ## Node by node -/

/-- **The difference at one node**: a comma too many in a container that is not empty, and the two literals
    with each other's length. -/
theorem ownBytes_textBytes (node : Value) :
    ownBytes node + falseHere node = textBytes node + (containerHere node + trueHere node) := by
  cases node with
  | null => rfl
  | bool value => cases value <;> rfl
  | number value => rfl
  | string value => rfl
  | array values =>
    cases values with
    | nil => rfl
    | cons value values =>
      simp only [ownBytes, textBytes, falseHere, trueHere, containerHere, List.length_cons]
      omega
  | object values =>
    cases values with
    | nil => rfl
    | cons field values =>
      have hfields : ∀ fields : List (String × Value),
          (fields.map fun field => field.1.utf8ByteSize + 4).sum =
            (fields.map fun field => field.1.utf8ByteSize + 3).sum + fields.length := by
        intro fields
        induction fields with
        | nil => rfl
        | cons field fields ih =>
          simp only [List.map_cons, List.sum_cons, List.length_cons]
          omega
      simp only [ownBytes, textBytes, falseHere, trueHere, containerHere, hfields, List.length_cons]
      omega

/-- The difference in total. -/
theorem total_ownBytes (value : Value) :
    value.total ownBytes + falses value = value.total textBytes + (containers value + trues value) := by
  have h := value.total_add ownBytes_textBytes
  have hsplit : value.total (fun node => containerHere node + trueHere node) =
      containers value + trues value := List.sum_map_add
  rwa [hsplit] at h

/-- Over several values the estimate differs from the text by what it does for each: one byte
    too few for `false`, one too many for `true` and for a container that is not empty. -/
theorem sum_ownBytes (values : List Value) :
    (values.map (Value.total ownBytes)).sum + (values.map falses).sum =
      (values.map (Value.total textBytes)).sum + ((values.map containers).sum + (values.map trues).sum) := by
  induction values with
  | nil => rfl
  | cons value values ih =>
    have hvalue := total_ownBytes value
    simp only [List.map_cons, List.sum_cons]
    omega

/-! ## The history limit -/

/-- What the history's turns are counted as is the sum over the nodes of its items: within the limit no
    addition saturates. -/
theorem historyBytes_retained {history : History} {turns : List (List Value)}
    (hretains : history.Retains turns) (hlimits : WithinLimits turns) :
    historyBytes history.turns = (history.items.map (Value.total ownBytes)).sum := by
  have hlimit : maxHistoryBytes < usizeMax := by decide
  have hsum := hlimits.bytes
  have hturns : history.turns.map (·.approxBytes) = turns.map turnBytes := by
    rw [hretains.turns, List.map_map]
    rfl
  have hexact : turns.map turnBytes = turns.map fun turn => (turn.map (Value.total ownBytes)).sum := by
    refine List.map_congr_left fun turn hmem => (saturates_turnBytes turn).eq_of_lt ?_
    have hle : turnBytes turn ≤ (turns.map turnBytes).sum :=
      List.single_le_sum (fun _ _ => Nat.zero_le _) _ (List.mem_map_of_mem hmem)
    omega
  have hflatten : (turns.flatten.map (Value.total ownBytes)).sum =
      (turns.map fun turn => (turn.map (Value.total ownBytes)).sum).sum := by
    rw [List.map_flatten, List.sum_flatten, List.map_map]
    rfl
  rw [historyBytes, foldl_saturatingAdd history.turns 0 (Nat.zero_le _), hturns, hretains.items, hflatten,
    ← hexact]
  omega

/-- The bytes of the items' texts. -/
def contentBytes (serialize : Value → String) (items : List Value) : Nat :=
  (items.map fun value => (serialize value).utf8ByteSize).sum

/-- **The estimate tracks the text** exactly where the value's `false` literals are made up for: no more
    of them than `true` literals and containers, no fewer than `true` literals.  And a room's history is
    counted within the limit, with no more content than is counted exactly where its items' `false`
    literals are made up for. -/
theorem approxJsonBytes_tracks_iff {serialize : Value → String} (hserialize : CompactSerializer serialize) :
    (∀ value, EscapeFree value → Unsaturated value →
      ((serialize value).utf8ByteSize ≤ approxJsonBytes value ∧
          approxJsonBytes value ≤ (serialize value).utf8ByteSize + containers value ↔
        falses value ≤ trues value + containers value ∧ trues value ≤ falses value)) ∧
    ∀ (settings : RoomSettings) (s : RoomState) (h : RoomHistory),
      Path roomSys (.new settings) h s → OwnTokens h →
      (∀ value ∈ s.history.items, EscapeFree value) →
      historyBytes s.history.turns ≤ maxHistoryBytes ∧
      (contentBytes serialize s.history.items ≤ historyBytes s.history.turns ↔
        (s.history.items.map falses).sum ≤
          (s.history.items.map trues).sum + (s.history.items.map containers).sum) ∧
      ((s.history.items.map falses).sum ≤
          (s.history.items.map trues).sum + (s.history.items.map containers).sum →
        contentBytes serialize s.history.items ≤ maxHistoryBytes) := by
  refine ⟨fun value hfree hsize => ?_, fun settings s h p hown hfree => ?_⟩
  · have htext := utf8ByteSize_serialize hserialize value hfree
    have hestimate := (saturates_approxJsonBytes value).eq_of_le hsize
    have hdifference := total_ownBytes value
    omega
  · obtain ⟨turns, -, hretains, hlimits⟩ := (recorded_path p hown).1
    have hcounted := historyBytes_retained hretains hlimits
    have hdifference := sum_ownBytes s.history.items
    -- what the items take as text, literal by literal
    have hcontent :
        contentBytes serialize s.history.items = (s.history.items.map (Value.total textBytes)).sum :=
      congrArg List.sum (List.map_congr_left fun value hmem =>
        utf8ByteSize_serialize hserialize value (hfree value hmem))
    have hwithin : historyBytes s.history.turns ≤ maxHistoryBytes := by
      rw [historyBytes_le_iff, hretains.turns, List.map_map]
      exact hlimits.bytes
    exact ⟨hwithin, by omega, by omega⟩

/-- Two literals that make up for each other. -/
theorem approxJsonBytes_tracks_pair :
    (compactJson (.object [("ok", .array [.bool true, .bool false])])).utf8ByteSize ≤
        approxJsonBytes (.object [("ok", .array [.bool true, .bool false])]) ∧
      approxJsonBytes (.object [("ok", .array [.bool true, .bool false])]) ≤
        (compactJson (.object [("ok", .array [.bool true, .bool false])])).utf8ByteSize +
          containers (.object [("ok", .array [.bool true, .bool false])]) :=
  ((approxJsonBytes_tracks_iff compactSerializer_compactJson).1 _ (by decide) (by decide)).mpr (by decide)

/-- A first turn within the limits is kept. -/
theorem retains_first_turn {turnItems : List Value} (h : WithinLimits [turnItems]) :
    ((RoomState.new {}).appendTurn .gemini turnItems).history.Retains [turnItems] := by
  obtain ⟨kept, hlongest, hkept⟩ := History.retains_empty.pushTurn turnItems
  have hlength := hlongest.longest [turnItems] List.suffix_rfl h
  have hall : kept = [turnItems] := hlongest.suffix.eq_of_length_le hlength
  rw [hall] at hkept
  exact hkept

/-- `false` is one byte longer than its estimate; and an array of enough of them is within the limit by its
    estimate, and its text 838857 bytes over it. -/
theorem approxJsonBytes_false_short :
    (¬ ∀ value, EscapeFree value → Unsaturated value →
      (compactJson value).utf8ByteSize ≤ approxJsonBytes value ∧
        approxJsonBytes value ≤ (compactJson value).utf8ByteSize + containers value) ∧
    ∃ (s : RoomState) (h : RoomHistory), Path roomSys (.new {}) h s ∧ OwnTokens h ∧
      (∀ value ∈ s.history.items, EscapeFree value) ∧
      contentBytes compactJson s.history.items = maxHistoryBytes + 838857 := by
  refine ⟨fun h => ?_, ?_⟩
  · have hfalse := (h (.bool false) (by decide) (by decide)).1
    exact absurd hfalse (by decide)
  · -- one turn with one item: the estimate of the array is the limit less two
    obtain ⟨n, hn⟩ : ∃ n, n = 838860 := ⟨_, rfl⟩
    let values := List.replicate n (Value.bool false)
    have hfree : EscapeFree (.array values) := by
      rw [EscapeFree, Value.nodes_array]
      refine List.forall_mem_cons.mpr ⟨trivial, fun node hnode => ?_⟩
      obtain ⟨value, hvalue, hnode⟩ := List.mem_flatMap.mp hnode
      obtain rfl := List.eq_of_mem_replicate hvalue
      obtain rfl := List.mem_singleton.mp hnode
      trivial
    have htotal : ∀ weight : Value → Nat,
        (Value.array values).total weight = weight (.array values) + n * weight (.bool false) := by
      intro weight
      rw [Value.total_array, List.map_replicate, List.sum_replicate]
      simp [Value.total, Value.nodes]
    have hestimate : turnBytes [.array values] = 4194302 := by
      have hexact : ([Value.array values].map (Value.total ownBytes)).sum = 4194302 := by
        rw [List.map_singleton, List.sum_singleton, htotal]
        simp only [ownBytes, values, List.length_replicate]
        show 2 + n + n * 4 = 4194302
        omega
      rw [← hexact]
      exact (saturates_turnBytes _).eq_of_le (by rw [hexact]; decide)
    have hretains := @retains_first_turn [.array values]
      ⟨Nat.le_add_left 1 31, by rw [List.map_singleton, List.sum_singleton, hestimate]; decide⟩
    refine ⟨_, [(.new {}, .appendTurn .gemini [.array values])], .step .start rfl, trivial, ?_, ?_⟩
    · intro value hmem
      replace hmem : value ∈ ((RoomState.new {}).appendTurn .gemini [.array values]).history.items := hmem
      rw [hretains.items] at hmem
      obtain rfl := List.mem_singleton.mp hmem
      exact hfree
    · show contentBytes compactJson ((RoomState.new {}).appendTurn .gemini _).history.items = _
      rw [hretains.items]
      show ([Value.array values].map fun value => (compactJson value).utf8ByteSize).sum = _
      rw [List.map_singleton, List.sum_singleton,
        utf8ByteSize_serialize compactSerializer_compactJson _ hfree, htotal]
      simp only [textBytes, values, List.length_replicate]
      show 2 + (n - 1) + n * 5 = 4 * 1024 * 1024 + 838857
      omega

end Tellm
