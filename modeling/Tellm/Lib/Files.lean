/-
  FILES: a directory tree as a program sees it, and what power loss leaves of it.

  A name is bound to an inode, and an inode holds the bytes.  Both may be ahead of the disk: a binding is
  on the disk once its directory has been flushed, the bytes once the file has.  Power loss brings every
  name back to its binding on the disk or to any one since, each name on its own, and whatever bytes were
  not flushed come back as anything at all.

  1. **`Fs`**: the operations `createNew`, `append`, `flush`, `rename`, `remove`, `flushDir`, and
     `powerLoss` with the `Loss` that says what came back.
  2. **`Whole A fs n`**: whatever the name `n` may be bound to satisfies `A` and has been flushed.  It is
     the invariant that survives power loss (`Whole.image_powerLoss`, `Whole.powerLoss`).
  3. **Frames**: an operation keeps `Whole` at every name it does not bind and every inode it does not
     write (`Whole.append`, `Whole.bind_other`, ...).

  Names are of any type with decidable equality; which directory a name is in is asked through a
  predicate, so a flush of a directory is one operation for any way of having directories.  Inodes are
  numbered and never reused.

  The state has the binding that programs see and, for each name, those since the last flush of its
  directory, newest first (`possible`).  A rename adds one at each of its two names.  Nothing is said
  about the order in which the disk gets them, so a power loss may keep a later one and lose an earlier
  one at another name; that is weaker than what file systems give, and so a safe thing to assume.
-/
import Mathlib

namespace Files

/-- What is read from a file: its bytes, and the mode it was created with. -/
@[ext] structure Image where
  bytes : List UInt8
  mode : Option Nat
  deriving DecidableEq

/-- `flushed`: the bytes are on the disk. -/
structure Inode extends Image where
  flushed : Bool
  deriving DecidableEq

/-- What a name is bound to now, and the bindings that power loss may bring back. -/
structure Binding where
  now : Option Nat
  before : List (Option Nat) := []
  deriving DecidableEq

/-- A file just created. -/
def Inode.fresh (mode : Option Nat) : Inode := { bytes := [], mode, flushed := false }

/-- A file system: what each name is bound to, and the files behind the bindings. -/
structure Fs (Name : Type) where
  entries : Name → Binding
  inodes : List Inode

/-- What power loss brings back: for each name the place of a binding, for each inode bytes. -/
structure Loss (Name : Type) where
  binding : Name → Nat
  bytes : Nat → List UInt8

namespace Fs

variable {Name : Type}

/-- The file that a name shows now. -/
def lookup (fs : Fs Name) (n : Name) : Option Nat := (fs.entries n).now

/-- Everything that `n` may be bound to after power loss. -/
def possible (fs : Fs Name) (n : Name) : List (Option Nat) := (fs.entries n).now :: (fs.entries n).before

/-- What a binding shows. -/
def imageAt (fs : Fs Name) (o : Option Nat) : Option Image :=
  o.bind fun i => fs.inodes[i]?.map Inode.toImage

/-- What is read under the name `n`. -/
def image (fs : Fs Name) (n : Name) : Option Image := fs.imageAt (fs.lookup n)

/-- More bytes at the end of a file, which the disk may not have yet. -/
def append (fs : Fs Name) (i : Nat) (bytes : List UInt8) : Fs Name :=
  { fs with inodes := fs.inodes.modify i fun x => { x with bytes := x.bytes ++ bytes, flushed := false } }

/-- The file is on the disk as it is. -/
def flush (fs : Fs Name) (i : Nat) : Fs Name :=
  { fs with inodes := fs.inodes.modify i fun x => { x with flushed := true } }

/-- Every binding of the directory is on the disk. -/
def flushDir (fs : Fs Name) (inDir : Name → Bool) : Fs Name :=
  { fs with entries := fun n => if inDir n then ⟨(fs.entries n).now, []⟩ else fs.entries n }

/-- What is left when the power goes: of each name some binding that the disk may have, and of a file that was
    not flushed any bytes. -/
def powerLoss (fs : Fs Name) (loss : Loss Name) : Fs Name where
  entries n := ⟨(fs.possible n).getD (loss.binding n) (fs.lookup n), []⟩
  inodes := fs.inodes.mapIdx fun i x => if x.flushed then x else { x with bytes := loss.bytes i, flushed := true }

variable [DecidableEq Name]

/-- A name shows another file, or none; the disk may have this binding from now on, or an earlier one. -/
def bind (fs : Fs Name) (n : Name) (o : Option Nat) : Fs Name :=
  { fs with entries := fun m => if m = n then ⟨o, fs.possible n⟩ else fs.entries m }

/-- `O_CREAT | O_EXCL`: `none` when the name is bound. -/
def createNew (fs : Fs Name) (n : Name) (mode : Option Nat) : Option (Fs Name × Nat) :=
  match fs.lookup n with
  | some _ => none
  | none =>
    let grown : Fs Name := { fs with inodes := fs.inodes ++ [Inode.fresh mode] }
    some (grown.bind n (some fs.inodes.length), fs.inodes.length)

/-- `none` when `source` is not bound. -/
def rename (fs : Fs Name) (source target : Name) : Option (Fs Name) :=
  match fs.lookup source with
  | none => none
  | some i => if source = target then some fs else some ((fs.bind target (some i)).bind source none)

/-- A name is unbound. -/
def remove (fs : Fs Name) (n : Name) : Fs Name := fs.bind n none

/-! ## What the operations show -/

omit [DecidableEq Name] in
/-- Writing into a file changes no name. -/
@[simp] theorem lookup_append (fs : Fs Name) (i : Nat) (bytes : List UInt8) (n : Name) :
    (fs.append i bytes).lookup n = fs.lookup n := rfl

omit [DecidableEq Name] in
/-- Flushing a file changes no name. -/
@[simp] theorem lookup_flush (fs : Fs Name) (i : Nat) (n : Name) : (fs.flush i).lookup n = fs.lookup n := rfl

omit [DecidableEq Name] in
/-- Writing into a file does not change which bindings a power loss may leave. -/
@[simp] theorem possible_append (fs : Fs Name) (i : Nat) (bytes : List UInt8) (n : Name) :
    (fs.append i bytes).possible n = fs.possible n := rfl

omit [DecidableEq Name] in
/-- Nor does flushing a file: the bindings are the directory's. -/
@[simp] theorem possible_flush (fs : Fs Name) (i : Nat) (n : Name) :
    (fs.flush i).possible n = fs.possible n := rfl

omit [DecidableEq Name] in
/-- The file that is written to grows at its end and is not flushed any more. -/
theorem getElem?_append_self {fs : Fs Name} {i : Nat} {x : Inode} (h : fs.inodes[i]? = some x)
    (bytes : List UInt8) :
    (fs.append i bytes).inodes[i]? = some { x with bytes := x.bytes ++ bytes, flushed := false } := by
  simp [append, h]

omit [DecidableEq Name] in
/-- The file that is flushed keeps its bytes. -/
theorem getElem?_flush_self {fs : Fs Name} {i : Nat} {x : Inode} (h : fs.inodes[i]? = some x) :
    (fs.flush i).inodes[i]? = some { x with flushed := true } := by
  simp [flush, h]

omit [DecidableEq Name] in
/-- Every other file is as it was after a write. -/
theorem getElem?_append_ne {fs : Fs Name} {i k : Nat} (h : k ≠ i) (bytes : List UInt8) :
    (fs.append i bytes).inodes[k]? = fs.inodes[k]? := List.getElem?_modify_ne _ _ (Ne.symm h)

omit [DecidableEq Name] in
/-- Every other file is as it was after a flush. -/
theorem getElem?_flush_ne {fs : Fs Name} {i k : Nat} (h : k ≠ i) : (fs.flush i).inodes[k]? = fs.inodes[k]? :=
  List.getElem?_modify_ne _ _ (Ne.symm h)

omit [DecidableEq Name] in
/-- A write makes no new file. -/
@[simp] theorem length_append (fs : Fs Name) (i : Nat) (bytes : List UInt8) :
    (fs.append i bytes).inodes.length = fs.inodes.length := List.length_modify _ _ _

omit [DecidableEq Name] in
/-- A flush makes no new file. -/
@[simp] theorem length_flush (fs : Fs Name) (i : Nat) : (fs.flush i).inodes.length = fs.inodes.length :=
  List.length_modify _ _ _

omit [DecidableEq Name] in
/-- Flushing a directory touches no file. -/
@[simp] theorem inodes_flushDir (fs : Fs Name) (inDir : Name → Bool) :
    (fs.flushDir inDir).inodes = fs.inodes := rfl

omit [DecidableEq Name] in
/-- Flushing a directory changes no name as the programs see it: it settles what a power loss leaves. -/
@[simp] theorem lookup_flushDir (fs : Fs Name) (inDir : Name → Bool) (n : Name) :
    (fs.flushDir inDir).lookup n = fs.lookup n := by
  simp only [lookup, flushDir]
  split <;> rfl

omit [DecidableEq Name] in
/-- Flushing a directory only ever rules out bindings. -/
theorem mem_possible_flushDir {fs : Fs Name} {inDir : Name → Bool} {n : Name} {o : Option Nat}
    (h : o ∈ (fs.flushDir inDir).possible n) : o ∈ fs.possible n := by
  simp only [possible, flushDir] at h ⊢
  split at h
  · rw [List.mem_singleton] at h
    exact h ▸ List.mem_cons_self
  · exact h

/-- Binding a name, by a rename or a removal, touches no file. -/
@[simp] theorem inodes_bind (fs : Fs Name) (n : Name) (o : Option Nat) : (fs.bind n o).inodes = fs.inodes := rfl

/-- A name that is bound anew shows the new binding, the others the old ones. -/
@[simp] theorem lookup_bind (fs : Fs Name) (n m : Name) (o : Option Nat) :
    (fs.bind n o).lookup m = if m = n then o else fs.lookup m := by
  simp only [lookup, bind]
  split <;> rfl

/-- A new binding is possible beside all those that were possible before, until the directory is flushed. -/
@[simp] theorem possible_bind (fs : Fs Name) (n m : Name) (o : Option Nat) :
    (fs.bind n o).possible m = if m = n then o :: fs.possible n else fs.possible m := by
  simp only [possible, bind]
  split <;> rfl

omit [DecidableEq Name] in
/-- What the programs see is among what a power loss may leave. -/
theorem lookup_mem_possible (fs : Fs Name) (n : Name) : fs.lookup n ∈ fs.possible n := List.mem_cons_self

omit [DecidableEq Name] in
/-- An unbound name has no image. -/
@[simp] theorem imageAt_none (fs : Fs Name) : fs.imageAt none = none := rfl

omit [DecidableEq Name] in
/-- A bound name has the image of its file. -/
theorem imageAt_some (fs : Fs Name) (i : Nat) : fs.imageAt (some i) = fs.inodes[i]?.map Inode.toImage := rfl

/-- Everything that `createNew` does. -/
theorem createNew_eq_some {fs fs' : Fs Name} {n : Name} {mode : Option Nat} {i : Nat}
    (h : fs.createNew n mode = some (fs', i)) :
    fs.lookup n = none ∧ i = fs.inodes.length ∧
      fs' = ({ fs with inodes := fs.inodes ++ [Inode.fresh mode] } : Fs Name).bind n (some i) := by
  simp only [createNew] at h
  split at h
  · cases h
  · rename_i hfree
    obtain ⟨rfl, rfl⟩ := Prod.mk.inj (Option.some.inj h)
    exact ⟨hfree, rfl, rfl⟩

/-- Everything that `rename` does. -/
theorem rename_eq_some {fs fs' : Fs Name} {source target : Name} (hne : source ≠ target)
    (h : fs.rename source target = some fs') :
    ∃ i, fs.lookup source = some i ∧ fs' = (fs.bind target (some i)).bind source none := by
  simp only [rename, if_neg hne] at h
  split at h
  · cases h
  · rename_i i hi
    exact ⟨i, hi, (Option.some.inj h).symm⟩

end Fs

/-! ## Whole files -/

variable {Name : Type} {A : Option Image → Prop} {fs : Fs Name} {n : Name}

/-- A binding that shows what `A` allows, with the bytes on the disk. -/
def Sound (A : Option Image → Prop) (fs : Fs Name) (o : Option Nat) : Prop :=
  A (fs.imageAt o) ∧ ∀ i, o = some i → ∃ x, fs.inodes[i]? = some x ∧ x.flushed = true

/-- Whatever the name may be bound to is so. -/
def Whole (A : Option Image → Prop) (fs : Fs Name) (n : Name) : Prop := ∀ o ∈ fs.possible n, Sound A fs o

/-- A name known to be unbound, now and after power loss. -/
def Fs.Unlinked (fs : Fs Name) (i : Nat) (n : Name) : Prop := some i ∉ fs.possible n

/-- A name that is unbound is sound if no file at all is acceptable. -/
theorem sound_none (h : A none) : Sound A fs none := ⟨h, fun _ h => (by cases h)⟩

/-- A name that is bound is sound if its file is flushed and acceptable. -/
theorem sound_some {i : Nat} {x : Inode} (hx : fs.inodes[i]? = some x) (hflushed : x.flushed = true)
    (hA : A (some x.toImage)) : Sound A fs (some i) := by
  refine ⟨?_, fun j hj => ?_⟩
  · rw [Fs.imageAt_some, hx]
    exact hA
  · obtain rfl := Option.some.inj hj
    exact ⟨x, hx, hflushed⟩

/-- What is sound for one notion of acceptable is so for every wider one. -/
theorem Sound.mono {B : Option Image → Prop} {o : Option Nat} (h : Sound A fs o) (hAB : ∀ x, A x → B x) :
    Sound B fs o :=
  ⟨hAB _ h.1, h.2⟩

/-- What a binding shows depends on its own inode only. -/
theorem Sound.congr {fs' : Fs Name} {o : Option Nat} (h : Sound A fs o)
    (hsame : ∀ i x, o = some i → fs.inodes[i]? = some x → fs'.inodes[i]? = some x) : Sound A fs' o := by
  cases o with
  | none => exact sound_none h.1
  | some i =>
    obtain ⟨x, hx, hflushed⟩ := h.2 i rfl
    have himage := h.1
    rw [Fs.imageAt_some, hx] at himage
    exact sound_some (hsame i x rfl hx) hflushed himage

/-- At a whole name the programs see something acceptable. -/
theorem Whole.image (h : Whole A fs n) : A (fs.image n) := (h _ (fs.lookup_mem_possible n)).1

/-- What is whole for one notion of acceptable is so for every wider one. -/
theorem Whole.mono {B : Option Image → Prop} (h : Whole A fs n) (hAB : ∀ x, A x → B x) : Whole B fs n :=
  fun o ho => (h o ho).mono hAB

/-! ## Power loss -/

/-- A flushed file survives a power loss with all its bytes. -/
theorem getElem?_powerLoss {loss : Loss Name} {i : Nat} {x : Inode} (hx : fs.inodes[i]? = some x)
    (hflushed : x.flushed = true) : (fs.powerLoss loss).inodes[i]? = some x := by
  simp only [Fs.powerLoss, List.getElem?_mapIdx, hx, Option.map_some, hflushed, if_true]

/-- After a power loss a name has one of the bindings that were possible before it. -/
theorem lookup_powerLoss_mem (fs : Fs Name) (loss : Loss Name) (n : Name) :
    (fs.powerLoss loss).lookup n ∈ fs.possible n := by
  simp only [Fs.lookup, Fs.powerLoss, List.getD_eq_getElem?_getD]
  cases hget : (fs.possible n)[loss.binding n]? with
  | none => exact fs.lookup_mem_possible n
  | some o => exact List.mem_of_getElem? hget

/-- After a power loss there is nothing left to settle: each name has its one binding. -/
theorem possible_powerLoss (fs : Fs Name) (loss : Loss Name) (n : Name) :
    (fs.powerLoss loss).possible n = [(fs.powerLoss loss).lookup n] := rfl

/-- **Whole files survive**: power loss leaves the name whole, ... -/
theorem Whole.powerLoss (h : Whole A fs n) (loss : Loss Name) : Whole A (fs.powerLoss loss) n := by
  intro o ho
  rw [possible_powerLoss, List.mem_singleton] at ho
  subst ho
  refine (h _ (lookup_powerLoss_mem fs loss n)).congr fun i x hi hx => ?_
  obtain ⟨y, hy, hflushed⟩ := (h _ (lookup_powerLoss_mem fs loss n)).2 i hi
  rw [hx] at hy
  obtain rfl := Option.some.inj hy
  exact getElem?_powerLoss hx hflushed

/-- ... and what is then read is allowed. -/
theorem Whole.image_powerLoss (h : Whole A fs n) (loss : Loss Name) : A ((fs.powerLoss loss).image n) :=
  (h.powerLoss loss).image

/-- A name with one binding only, and its bytes on the disk, comes back as it was. -/
theorem image_powerLoss_of_settled (hone : (fs.entries n).before = [])
    (hflushed : ∀ i, fs.lookup n = some i → ∃ x, fs.inodes[i]? = some x ∧ x.flushed = true)
    (loss : Loss Name) : (fs.powerLoss loss).image n = fs.image n := by
  have hwhole : Whole (fun o => o = fs.image n) fs n := by
    intro o ho
    rw [Fs.possible, hone, List.mem_singleton] at ho
    subst ho
    exact ⟨rfl, hflushed⟩
  exact hwhole.image_powerLoss loss

/-! ## Frames -/

/-- A write into a file that the name may not be bound to leaves the name whole. -/
theorem Whole.append {i : Nat} {bytes : List UInt8} (h : Whole A fs n) (hi : fs.Unlinked i n) :
    Whole A (fs.append i bytes) n := by
  intro o ho
  refine (h o ho).congr fun j x hj hx => ?_
  rw [Fs.getElem?_append_ne, hx]
  rintro rfl
  exact hi (hj ▸ ho)

/-- A flush leaves every name whole. -/
theorem Whole.flush {i : Nat} (h : Whole A fs n) : Whole A (fs.flush i) n := by
  intro o ho
  refine (h o ho).congr fun j x hj hx => ?_
  obtain ⟨y, hy, hflushed⟩ := (h o ho).2 j hj
  rw [hx] at hy
  obtain rfl := Option.some.inj hy
  by_cases hji : j = i
  · -- the flush of a file already on the disk
    subst hji
    rw [Fs.getElem?_flush_self hx]
    cases x
    cases hflushed
    rfl
  · rw [Fs.getElem?_flush_ne hji, hx]

/-- So does the flush of a directory, which only rules out bindings. -/
theorem Whole.flushDir {inDir : Name → Bool} (h : Whole A fs n) : Whole A (fs.flushDir inDir) n :=
  fun o ho => (h o (Fs.mem_possible_flushDir ho)).congr fun _ _ _ hx => hx

variable [DecidableEq Name] {m : Name}

/-- Binding one name leaves every other whole. -/
theorem Whole.bind_other {o : Option Nat} (h : Whole A fs n) (hne : n ≠ m) : Whole A (fs.bind m o) n := by
  intro o' ho'
  rw [Fs.possible_bind, if_neg hne] at ho'
  exact (h o' ho').congr fun _ _ _ hx => hx

/-- A name bound to something allowed and flushed stays whole. -/
theorem Whole.bind {o : Option Nat} (h : Whole A fs n) (ho : Sound A fs o) : Whole A (fs.bind n o) n := by
  intro o' ho'
  rw [Fs.possible_bind, if_pos rfl] at ho'
  rcases List.mem_cons.mp ho' with rfl | hold
  · exact ho.congr fun _ _ _ hx => hx
  · exact (h o' hold).congr fun _ _ _ hx => hx

/-- A file created under another name. -/
theorem Whole.createNew {fs' : Fs Name} {mode : Option Nat} {i : Nat} (h : Whole A fs n)
    (hcreate : fs.createNew m mode = some (fs', i)) (hne : n ≠ m) : Whole A fs' n := by
  obtain ⟨-, -, rfl⟩ := Fs.createNew_eq_some hcreate
  refine Whole.bind_other ?_ hne
  intro o ho
  refine (h o ho).congr fun j x _ hx => ?_
  have hlt : j < fs.inodes.length := (List.getElem?_eq_some_iff.mp hx).1
  rw [List.getElem?_append_left hlt, hx]

end Files
