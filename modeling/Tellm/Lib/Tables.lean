/-
  RECORDS AS TABLES: what a derived serializer writes and a derived deserializer reads back.

  A record is written as a table of its fields, under the fields' names, and read back by name: the order
  of the entries does not matter, an entry that no field asks for is ignored, and a field says what it is
  when its entry is missing.  `Same` is equality of values up to the order of tables' entries.

  1. **`Codec`**: writing and reading a value of some type, with the law that whatever is the `Same` as what
     was written reads back (`decode_encode`).  Strings, integers, booleans, lists, names of constants and
     maps from strings.
  2. **`Field`**: one entry of a record: required, optional, or with a default that is written or left out.
  3. **`Record`**: fields put together (`Record.field`, `Record.and`, `Record.codec`), whatever their types,
     as long as their names differ.

  The order of a table's entries is not part of its meaning, which is why reading back is stated up to
  `Same`: a serializer may sort, and a deserializer look fields up in any order.  A map whose keys are
  strings is written as a table as well, and read back whatever the order.

  A codec carries its law as a field, so one that does not read back what it writes cannot be built;
  records are put together from codecs, and their law with them.
-/
import Mathlib

namespace Tables

/-- A value of a table, as far as records need them. -/
inductive Value
  | string (text : String)
  | integer (n : Int)
  | boolean (b : Bool)
  | array (items : List Value)
  | table (entries : List (String × Value))

/-- The first value under a key. -/
def lookup {α : Type} (entries : List (String × α)) (key : String) : Option α :=
  (entries.find? fun e => e.1 == key).map Prod.snd

/-- Equal up to the order of tables' entries. -/
inductive Same : Value → Value → Prop
  | string (text : String) : Same (.string text) (.string text)
  | integer (n : Int) : Same (.integer n) (.integer n)
  | boolean (b : Bool) : Same (.boolean b) (.boolean b)
  | array {items items' : List Value} : List.Forall₂ Same items items' → Same (.array items) (.array items')
  | table {entries entries' : List (String × Value)} : (entries'.map Prod.fst).Nodup →
      (∀ key, Option.Rel Same (lookup entries key) (lookup entries' key)) → Same (.table entries) (.table entries')

/-! ## Looking up -/

section

variable {α : Type} {entries entries' : List (String × α)} {key : String} {a : α}

theorem lookup_append (entries entries' : List (String × α)) (key : String) :
    lookup (entries ++ entries') key = (lookup entries key).or (lookup entries' key) := by
  simp only [lookup, List.find?_append]
  cases entries.find? fun e => e.1 == key <;> rfl

theorem mem_of_lookup (h : lookup entries key = some a) : (key, a) ∈ entries := by
  obtain ⟨e, he, rfl⟩ := Option.map_eq_some_iff.mp h
  have hkey : e.1 = key := by simpa using List.find?_some he
  exact hkey ▸ List.mem_of_find?_eq_some he

theorem lookup_eq_none : lookup entries key = none ↔ ∀ e ∈ entries, e.1 ≠ key := by
  simp [lookup]

/-- Names that differ are found where they are. -/
theorem lookup_of_mem (hnodup : (entries.map Prod.fst).Nodup) (h : (key, a) ∈ entries) :
    lookup entries key = some a := by
  induction entries with
  | nil => cases h
  | cons e entries ih =>
    rw [List.map_cons, List.nodup_cons] at hnodup
    simp only [lookup, List.find?_cons]
    rcases List.mem_cons.mp h with rfl | h
    · simp
    · have hne : (e.1 == key) = false := by
        rw [beq_eq_false_iff_ne]
        rintro rfl
        exact hnodup.1 (List.mem_map.mpr ⟨_, h, rfl⟩)
      rw [hne]
      exact ih hnodup.2 h

end

/-- A table that names nothing twice is the same as itself. -/
theorem same_table {entries : List (String × Value)} (hnodup : (entries.map Prod.fst).Nodup)
    (h : ∀ e ∈ entries, Same e.2 e.2) : Same (.table entries) (.table entries) := by
  refine .table hnodup fun key => ?_
  cases hlookup : lookup entries key with
  | none => exact .none
  | some v => exact .some (h _ (mem_of_lookup hlookup))

theorem same_array {items : List Value} (h : ∀ v ∈ items, Same v v) : Same (.array items) (.array items) :=
  .array (List.forall₂_same.mpr h)

/-! ## Codecs -/

/-- How a type is written and read back.  What is written names nothing twice (`encode_same`). -/
structure Codec (α : Type) where
  encode : α → Value
  decode : Value → Option α
  encode_same : ∀ a, Same (encode a) (encode a)
  decode_encode : ∀ a v, Same (encode a) v → decode v = some a

namespace Codec

variable {α : Type}

/-- A text is a string. -/
def string : Codec String where
  encode := .string
  decode
    | .string text => some text
    | _ => none
  encode_same := .string
  decode_encode := by
    rintro a v (_ | _)
    rfl

/-- A number is an integer. -/
def integer : Codec Int where
  encode := .integer
  decode
    | .integer n => some n
    | _ => none
  encode_same := .integer
  decode_encode := by
    rintro a v (_ | _)
    rfl

/-- A truth value is a boolean. -/
def boolean : Codec Bool where
  encode := .boolean
  decode
    | .boolean b => some b
    | _ => none
  encode_same := .boolean
  decode_encode := by
    rintro a v (_ | _)
    rfl

/-- A type of constants, each written as its name. -/
def constant (names : α → String) (all : List α) (hall : ∀ a, a ∈ all) (hnames : Function.Injective names) :
    Codec α where
  encode a := .string (names a)
  decode
    | .string text => all.find? fun a => names a == text
    | _ => none
  encode_same a := .string (names a)
  decode_encode := by
    rintro a v (_ | _)
    cases hfind : all.find? fun b => names b == names a with
    | none => exact absurd (hall a) fun h => by simpa using List.find?_eq_none.mp hfind a h
    | some b =>
      have hname : names b = names a := by simpa using List.find?_some hfind
      show all.find? _ = some a
      rw [hfind, hnames hname]

/-- A list is an array of its items, each of which must be read. -/
def list (c : Codec α) : Codec (List α) where
  encode items := .array (items.map c.encode)
  decode
    | .array items => items.mapM c.decode
    | _ => none
  encode_same items := by
    refine same_array fun v hv => ?_
    obtain ⟨a, -, rfl⟩ := List.mem_map.mp hv
    exact c.encode_same a
  decode_encode := by
    intro items v h
    cases h with
    | @array _ items' h =>
      show items'.mapM c.decode = some items
      induction items generalizing items' with
      | nil =>
        cases h
        rfl
      | cons a items ih =>
        cases h with
        | cons hhead htail => simp [c.decode_encode a _ hhead, ih htail]

/-- The entries decoded one by one. -/
theorem mapM_entries {c : Codec α} {entries : List (String × Value)} {p : String → α → Prop}
    (h : ∀ e ∈ entries, ∃ a, p e.1 a ∧ c.decode e.2 = some a) :
    ∃ decoded, (entries.mapM fun e => (c.decode e.2).map fun a => (e.1, a)) = some decoded ∧
      decoded.map Prod.fst = entries.map Prod.fst ∧ ∀ e ∈ decoded, p e.1 e.2 := by
  induction entries with
  | nil => exact ⟨[], rfl, rfl, fun _ he => absurd he List.not_mem_nil⟩
  | cons e entries ih =>
    obtain ⟨a, ha, hdecode⟩ := h e List.mem_cons_self
    obtain ⟨decoded, hdecoded, hkeys, hall⟩ := ih fun e he => h e (List.mem_cons_of_mem _ he)
    refine ⟨(e.1, a) :: decoded, ?_, ?_, ?_⟩
    · simp [hdecode, hdecoded]
    · rw [List.map_cons, List.map_cons, hkeys]
    · intro x hx
      rcases List.mem_cons.mp hx with rfl | hx
      · exact ha
      · exact hall x hx

theorem nodup_encoded (c : Codec α) (m : Std.ExtTreeMap String α compare) :
    ((m.toList.map fun e => (e.1, c.encode e.2)).map Prod.fst).Nodup := by
  rw [List.map_map]
  refine List.Pairwise.map _ (fun a b hab heq => ?_) m.distinct_keys_toList
  exact hab (compare_eq_iff_eq.mpr heq)

theorem lookup_encoded {c : Codec α} {m : Std.ExtTreeMap String α compare} {key : String} :
    lookup (m.toList.map fun e => (e.1, c.encode e.2)) key = m[key]?.map c.encode := by
  cases hm : m[key]? with
  | none =>
    rw [Option.map_none, lookup_eq_none]
    rintro e he rfl
    obtain ⟨x, hx, rfl⟩ := List.mem_map.mp he
    rw [Std.ExtTreeMap.mem_toList_iff_getElem?_eq_some.mp hx] at hm
    cases hm
  | some a =>
    refine lookup_of_mem (nodup_encoded c m) (List.mem_map.mpr ⟨(key, a), ?_, rfl⟩)
    exact Std.ExtTreeMap.mem_toList_iff_getElem?_eq_some.mpr hm

/-- A map from strings, written as a table. -/
def map (c : Codec α) : Codec (Std.ExtTreeMap String α compare) where
  encode m := .table (m.toList.map fun e => (e.1, c.encode e.2))
  decode
    | .table entries =>
      (entries.mapM fun e => (c.decode e.2).map fun a => (e.1, a)).map fun decoded =>
        Std.ExtTreeMap.ofList decoded compare
    | _ => none
  encode_same m := by
    refine same_table (nodup_encoded c m) fun e he => ?_
    obtain ⟨x, -, rfl⟩ := List.mem_map.mp he
    exact c.encode_same x.2
  decode_encode := by
    intro m v h
    cases h with
    | @table _ entries hnodup h =>
      have heach : ∀ e ∈ entries, ∃ a, m[e.1]? = some a ∧ c.decode e.2 = some a := by
        intro e he
        have hrel := h e.1
        rw [lookup_encoded, lookup_of_mem hnodup he] at hrel
        cases hm : m[e.1]? with
        | none =>
          rw [hm] at hrel
          cases hrel
        | some a =>
          rw [hm, Option.map_some, Option.rel_some_some] at hrel
          exact ⟨a, rfl, c.decode_encode a _ hrel⟩
      obtain ⟨decoded, hdecoded, hkeys, hall⟩ := mapM_entries (p := fun key a => m[key]? = some a) heach
      simp only [hdecoded, Option.map_some]
      refine congrArg some (Std.ExtTreeMap.ext_getElem? fun key => ?_)
      by_cases hkey : key ∈ decoded.map Prod.fst
      · obtain ⟨e, he, rfl⟩ := List.mem_map.mp hkey
        have hdistinct : decoded.Pairwise fun a b => ¬ compare a.1 b.1 = .eq := by
          rw [← hkeys] at hnodup
          exact (List.pairwise_map.mp hnodup).imp fun hne heq => hne (compare_eq_iff_eq.mp heq)
        rw [Std.ExtTreeMap.getElem?_ofList_of_mem (compare_eq_iff_eq.mpr rfl) hdistinct he, hall e he]
      · rw [Std.ExtTreeMap.getElem?_ofList_of_contains_eq_false (by simpa using hkey)]
        have hrel := h key
        rw [hkeys] at hkey
        have hnone : lookup entries key = none :=
          lookup_eq_none.mpr fun e he heq => hkey (heq ▸ List.mem_map_of_mem he)
        rw [lookup_encoded, hnone] at hrel
        cases hm : m[key]? with
        | none => rfl
        | some a =>
          rw [hm] at hrel
          cases hrel

end Codec

/-! ## Records -/

/-- One entry of a record: what is written under its name, if anything, and what is read from it. -/
structure Field (α : Type) where
  name : String
  put : α → Option Value
  get : Option Value → Option α
  put_same : ∀ a v, put a = some v → Same v v
  get_put : ∀ a o, Option.Rel Same (put a) o → get o = some a

namespace Field

variable {α : Type}

/-- A field that has to be there. -/
def required (name : String) (c : Codec α) : Field α where
  name
  put a := some (c.encode a)
  get o := o.bind c.decode
  put_same a v h := Option.some.inj h ▸ c.encode_same a
  get_put := by
    intro a o h
    cases h with
    | some h => exact c.decode_encode a _ h

/-- An optional field, left out when there is nothing. -/
def optional (name : String) (c : Codec α) : Field (Option α) where
  name
  put a := a.map c.encode
  get
    | none => some none
    | some v => (c.decode v).map some
  put_same a v h := by
    obtain ⟨b, -, rfl⟩ := Option.map_eq_some_iff.mp h
    exact c.encode_same b
  get_put := by
    rintro (_ | a) o h
    · cases h
      rfl
    · cases h with
      | some h => simp [c.decode_encode a _ h]

/-- A field with a default, always written. -/
def defaulted (name : String) (c : Codec α) (default : α) : Field α where
  name
  put a := some (c.encode a)
  get
    | none => some default
    | some v => c.decode v
  put_same a v h := Option.some.inj h ▸ c.encode_same a
  get_put := by
    intro a o h
    cases h with
    | some h => exact c.decode_encode a _ h

/-- A field with a default, left out when it is that. -/
def skipped [DecidableEq α] (name : String) (c : Codec α) (default : α) : Field α where
  name
  put a := if a = default then none else some (c.encode a)
  get
    | none => some default
    | some v => c.decode v
  put_same a v h := by
    obtain ⟨-, h⟩ := Option.ite_none_left_eq_some.mp h
    exact Option.some.inj h ▸ c.encode_same a
  get_put := by
    intro a o h
    split at h
    · rename_i hdefault
      cases h
      exact congrArg some hdefault.symm
    · cases h with
      | some h => exact c.decode_encode a _ h

end Field

/-- Fields together: what they write, and what they read from a table that has the same under their names. -/
structure Record (α : Type) where
  names : List String
  put : α → List (String × Value)
  get : List (String × Value) → Option α
  nodup : names.Nodup
  put_names : ∀ a, ((put a).map Prod.fst).Sublist names
  put_same : ∀ a, ∀ e ∈ put a, Same e.2 e.2
  get_put : ∀ a entries,
    (∀ name ∈ names, Option.Rel Same (lookup (put a) name) (lookup entries name)) → get entries = some a

namespace Record

variable {α β : Type}

/-- A record of one field. -/
def field (f : Field α) : Record α where
  names := [f.name]
  put a := ((f.put a).map fun v => (f.name, v)).toList
  get entries := f.get (lookup entries f.name)
  nodup := List.nodup_singleton f.name
  put_names a := by
    cases f.put a with
    | none => exact List.nil_sublist _
    | some v => exact List.Sublist.refl _
  put_same a e he := by
    obtain ⟨v, hv, rfl⟩ := Option.map_eq_some_iff.mp (Option.mem_toList.mp he)
    exact f.put_same a v hv
  get_put a entries h := by
    refine f.get_put a _ ?_
    have hname := h f.name List.mem_cons_self
    cases hput : f.put a with
    | none =>
      rw [hput] at hname
      exact hname
    | some v =>
      rw [hput] at hname
      simpa [lookup] using hname

/-- Two groups of fields with different names. -/
def and (r : Record α) (q : Record β) (hdiffer : ∀ name ∈ r.names, name ∉ q.names) : Record (α × β) where
  names := r.names ++ q.names
  put a := r.put a.1 ++ q.put a.2
  get entries := (r.get entries).bind fun a => (q.get entries).map fun b => (a, b)
  nodup := List.nodup_append.mpr ⟨r.nodup, q.nodup, fun a ha b hb heq => hdiffer a ha (heq ▸ hb)⟩
  put_names a := by
    rw [List.map_append]
    exact (r.put_names a.1).append (q.put_names a.2)
  put_same a e he := (List.mem_append.mp he).elim (r.put_same a.1 e) (q.put_same a.2 e)
  get_put a entries h := by
    -- no entry of one group is found under a name of the other
    have hmissing : ∀ {γ : Type} (s : Record γ) (c : γ) (name : String), name ∉ s.names →
        lookup (s.put c) name = none := by
      intro γ s c name hname
      refine lookup_eq_none.mpr fun e he heq => hname ?_
      exact (s.put_names c).subset (heq ▸ List.mem_map_of_mem he)
    have hr : r.get entries = some a.1 := by
      refine r.get_put a.1 entries fun name hname => ?_
      have hlookup := h name (List.mem_append_left _ hname)
      rwa [lookup_append, hmissing q a.2 name (hdiffer name hname), Option.or_none] at hlookup
    have hq : q.get entries = some a.2 := by
      refine q.get_put a.2 entries fun name hname => ?_
      have hlookup := h name (List.mem_append_right _ hname)
      rwa [lookup_append, hmissing r a.1 name (fun hr => hdiffer name hr hname), Option.none_or] at hlookup
    rw [hr, hq]
    rfl

/-- The record of a type with the same fields. -/
def as (r : Record α) (e : β ≃ α) : Record β where
  names := r.names
  put b := r.put (e b)
  get entries := (r.get entries).map e.symm
  nodup := r.nodup
  put_names b := r.put_names (e b)
  put_same b := r.put_same (e b)
  get_put b entries h := by
    rw [r.get_put (e b) entries h, Option.map_some, Equiv.symm_apply_apply]

/-- A record is written as a table. -/
def codec (r : Record α) : Codec α where
  encode a := .table (r.put a)
  decode
    | .table entries => r.get entries
    | _ => none
  encode_same a := same_table ((r.put_names a).nodup r.nodup) (r.put_same a)
  decode_encode := by
    intro a v h
    cases h with
    | table _ h => exact r.get_put a _ fun name _ => h name

end Record

end Tables
