/-
  ATOMIC WRITES: `write_atomic` of tellm-config, under any interleaving, failure, kill and power loss.

  config.toml, rooms.toml and credentials.toml are replaced through a temporary file in the same directory:
  create it, write it, flush it, rename it over the target, flush the directory.  The bot, the setup wizard
  and a second process may all do so at once, others may be reading, and any of them may stop anywhere.

  1. **`fileTasks`**: the calls as tasks (`Tellm.Lib.Tasks`), one act for each system call, on the directory
     tree of `Tellm.Lib.Files`.  `sys` adds power loss, which ends every task.
  2. **`Acts`**: everything an act can do, once for all invariants.
  3. **`Intact`**: what is readable is whole, and a temporary file is its writer's alone.

  A call is cut at every system call, and each of them may fail, or the process be killed there; a write
  may take a part of the bytes only.  The name of a temporary file is drawn at random and tried anew if it
  is taken, a bounded number of times.  Names that begin with a dot are hidden, and no saved file has one.

  Readers are tasks as well: they open a file and read it in pieces, while others replace it.  What they
  have opened is an inode, so they finish with what they began.

  What a task relies on (`FileTask.Relies`) is that its temporary file is there, under its own name and no
  other, with the bytes it has written so far; what it guarantees is that it touches that file only and
  binds no visible name but by the final rename (`Touches`).  `Intact` for the whole directory follows for
  every interleaving from these two.
-/
import Tellm.Lib.Tasks
import Tellm.Lib.Files
import Tellm.Lib.Flow

namespace Tellm

open Runs Tasks Files

namespace Atomic

/-! ## Paths and errors -/

/-- A path is a directory and a name in it; the root and a path ending in `..` have no name. -/
structure PathBuf where
  parent : String
  fileName : Option String
  deriving DecidableEq

/-- `Path::with_file_name`: another name in the same directory. -/
def PathBuf.withFileName (path : PathBuf) (name : String) : PathBuf := { path with fileName := some name }

/-- The name begins with a dot. -/
def PathBuf.isHidden (path : PathBuf) : Bool := path.fileName.any fun name => name.toList.head? == some '.'

/-- `io::ErrorKind`, as far as it is looked at. -/
inductive ErrorKind
  | notFound
  | alreadyExists
  | invalidInput
  | writeZero
  | other
  deriving DecidableEq

/-- `io::Error`: its kind and its text. -/
structure IoError where
  kind : ErrorKind
  message : String
  deriving DecidableEq

/-- A number in hexadecimal, with zeros in front up to a width. -/
def hexDigits (width value : Nat) : String :=
  let digits := Nat.toDigits 16 value
  String.ofList (List.replicate (width - digits.length) '0' ++ digits)

/-- The name of a temporary file: hidden, with the target's name, the process and a random number. -/
def tempName (fileName : String) (pid random : Nat) : String :=
  "." ++ fileName ++ ".tmp-" ++ toString pid ++ "-" ++ hexDigits 32 (random % 2 ^ 128)

/-! ## The tasks -/

/-- A call of `write_atomic_with_mode`, by a process. -/
structure WriteAtomic where
  path : PathBuf
  contents : List UInt8
  mode : Option Nat
  pid : Nat
  deriving DecidableEq

/-- What a reader of the target gets once the call has published. -/
def WriteAtomic.image (call : WriteAtomic) : Image := ⟨call.contents, call.mode⟩

/-- The temporary file's name, and the inode that the handle is open on. -/
structure TempFile where
  tmp : PathBuf
  file : Nat
  deriving DecidableEq

/-- A task's position.  The first five are `write_atomic_with_mode` up to its return, `removeTemp` its
    error path; the next is where it has returned.  The last but one group is `read_to_string`. -/
inductive FileTask
  | createUniqueTemp (call : WriteAtomic) (tries : Nat)
  | writeAll (call : WriteAtomic) (temp : TempFile) (written : Nat)
  | syncAll (call : WriteAtomic) (temp : TempFile)
  | publish (call : WriteAtomic) (temp : TempFile)
  | syncParent (call : WriteAtomic)
  | removeTemp (call : WriteAtomic) (temp : TempFile) (error : IoError)
  | returned (call : WriteAtomic) (result : Except IoError Unit)
  | openRead (path : PathBuf)
  | readToEnd (path : PathBuf) (file : Nat) (text : List UInt8)
  | read (path : PathBuf) (result : Except IoError (List UInt8))
  | killed
  deriving DecidableEq

/-- What the system answers: the call succeeds, where `n` is the random number or how many bytes were
    transferred; there is no random number; the call fails; or the process is killed first. -/
inductive Outcome
  | succeeds (n : Nat)
  | noRandom (error : String)
  | fails (error : IoError)
  | killed

namespace FileTask

/-- A call starts with eight tries.  A target is not a hidden file, as none of tellm's is. -/
def entry : FileTask → Bool
  | .createUniqueTemp call tries => tries == 8 && !call.path.isHidden
  | .openRead path => !path.isHidden
  | _ => false

/-- The temporary file that the task answers for. -/
def temp? : FileTask → Option TempFile
  | .writeAll _ temp _ => some temp
  | .syncAll _ temp => some temp
  | .publish _ temp => some temp
  | .removeTemp _ temp _ => some temp
  | _ => none

/-- The inode that the task writes. -/
def writes? (t : FileTask) : Option Nat := t.temp?.map TempFile.file

/-- The inode that the task has open. -/
def file? : FileTask → Option Nat
  | .readToEnd _ file _ => some file
  | t => t.writes?

end FileTask

/-- The error for a target without a name. -/
def noFileName : IoError := ⟨.invalidInput, "path has no file name"⟩

/-- The error when every try has met a file that was there. -/
def noUniqueTemp : IoError := ⟨.alreadyExists, "could not allocate a unique atomic-write temp file"⟩

/-- The error of a file that is not there. -/
def notFound : IoError := ⟨.notFound, "No such file or directory"⟩

/-- The file system, with paths for names. -/
abbrev FileSystem := Fs PathBuf

/-- One round of `create_unique_temp`'s loop. -/
def tempRound (call : WriteAtomic) (tries : Nat) (c : Outcome) (fs : FileSystem) : FileSystem × FileTask :=
  match call.path.fileName, tries, c with
  | none, _, _ => (fs, .returned call (.error noFileName))
  | some _, 0, _ => (fs, .returned call (.error noUniqueTemp))
  | some fileName, tries + 1, .succeeds random =>
    let tmp := call.path.withFileName (tempName fileName call.pid random)
    match fs.createNew tmp call.mode with
    | some (fs', file) => (fs', .writeAll call ⟨tmp, file⟩ 0)
    | none => (fs, .createUniqueTemp call tries)
  | some _, _ + 1, .noRandom error => (fs, .returned call (.error ⟨.other, "random temp-file name: " ++ error⟩))
  | some _, tries + 1, .fails error =>
    if error.kind = .alreadyExists then (fs, .createUniqueTemp call tries) else (fs, .returned call (.error error))
  | some _, _ + 1, .killed => (fs, .killed)

/-- What the task does next; `none` where it has returned, or where the outcome is not one it can meet. -/
def FileTask.act (t : FileTask) (c : Outcome) (fs : FileSystem) : Option (FileSystem × FileTask) :=
  match t, c with
  | .returned _ _, _ => none
  | .read _ _, _ => none
  | .killed, _ => none
  | _, .killed => some (fs, .killed)
  | .createUniqueTemp call tries, c => some (tempRound call tries c fs)
  | _, .noRandom _ => none
  | .writeAll call temp written, .succeeds n =>
    let rest := call.contents.drop written
    if rest = [] then some (fs, .syncAll call temp)
    else if n = 0 then some (fs, .removeTemp call temp ⟨.writeZero, "failed to write whole buffer"⟩)
    else some (fs.append temp.file (rest.take n), .writeAll call temp (written + (rest.take n).length))
  | .writeAll call temp _, .fails error => some (fs, .removeTemp call temp error)
  | .syncAll call temp, .succeeds _ => some (fs.flush temp.file, .publish call temp)
  | .syncAll call temp, .fails error => some (fs, .removeTemp call temp error)
  | .publish call temp, .succeeds _ =>
    match fs.rename temp.tmp call.path with
    | some fs' => some (fs', .syncParent call)
    | none => some (fs, .removeTemp call temp notFound)
  | .publish call temp, .fails error => some (fs, .removeTemp call temp error)
  -- the file is published by now: what the flush of the directory says is only logged
  | .syncParent call, .succeeds _ =>
    some (fs.flushDir fun n => n.parent == call.path.parent, .returned call (.ok ()))
  | .syncParent call, .fails _ => some (fs, .returned call (.ok ()))
  | .removeTemp call temp error, .succeeds _ => some (fs.remove temp.tmp, .returned call (.error error))
  | .removeTemp call _ error, .fails _ => some (fs, .returned call (.error error))
  | .openRead path, .succeeds _ =>
    match fs.lookup path with
    | some file => some (fs, .readToEnd path file [])
    | none => some (fs, .read path (.error notFound))
  | .openRead path, .fails error => some (fs, .read path (.error error))
  -- a transfer has at least one byte, until there are none left
  | .readToEnd path file text, .succeeds n =>
    let rest := ((fs.inodes[file]?.map fun x => x.bytes).getD []).drop text.length
    if rest = [] then some (fs, .read path (.ok text))
    else some (fs, .readToEnd path file (text ++ rest.take (n + 1)))
  | .readToEnd path _ _, .fails error => some (fs, .read path (.error error))

/-- Any number of readers and writers.  One that has returned or was killed stays where it ended. -/
def fileTasks : Program FileSystem FileTask Outcome where
  entry := FileTask.entry
  act _ t c fs := (t.act c fs).map fun r => (r.1, some r.2)

/-- The tasks in progress, with the file system they share. -/
abbrev FilePool := Pool FileSystem FileTask

/-- A task begins or acts. -/
abbrev FileMove := Move FileTask Outcome

/-- A task starts or acts, or the power goes. -/
inductive Event
  | move (m : FileMove)
  | powerLoss (loss : Loss PathBuf)

/-- The event is a task's, and no power loss. -/
def Event.isMove : Event → Bool
  | .move _ => true
  | .powerLoss _ => false

/-- The tasks as a system.  After a power loss no task is left, and of the files what the disk has. -/
def sys : Sys FilePool Event where
  step p
    | .move m => fileTasks.sys.step p m
    | .powerLoss loss => some (Pool.idle (p.shared.powerLoss loss))

/-! ## What an act can do -/

/-- `Acts fs t fs' t'`: one constructor for each way on. -/
inductive Acts (fs : FileSystem) : FileTask → FileSystem → FileTask → Prop
  | retried {call : WriteAtomic} {tries : Nat} :
      Acts fs (.createUniqueTemp call (tries + 1)) fs (.createUniqueTemp call tries)
  | refused {call : WriteAtomic} {tries : Nat} {error : IoError} :
      Acts fs (.createUniqueTemp call tries) fs (.returned call (.error error))
  | created {call : WriteAtomic} {tries : Nat} {fs' : FileSystem} {temp : TempFile} :
      temp.tmp.isHidden = true → temp.tmp.parent = call.path.parent →
      fs.createNew temp.tmp call.mode = some (fs', temp.file) →
      Acts fs (.createUniqueTemp call (tries + 1)) fs' (.writeAll call temp 0)
  | wrote {call : WriteAtomic} {temp : TempFile} {written n : Nat} :
      Acts fs (.writeAll call temp written)
        (fs.append temp.file ((call.contents.drop written).take n))
        (.writeAll call temp (written + ((call.contents.drop written).take n).length))
  | wroteAll {call : WriteAtomic} {temp : TempFile} {written : Nat} :
      call.contents.drop written = [] → Acts fs (.writeAll call temp written) fs (.syncAll call temp)
  | synced {call : WriteAtomic} {temp : TempFile} :
      Acts fs (.syncAll call temp) (fs.flush temp.file) (.publish call temp)
  | published {call : WriteAtomic} {temp : TempFile} {fs' : FileSystem} :
      fs.rename temp.tmp call.path = some fs' → Acts fs (.publish call temp) fs' (.syncParent call)
  | failedWriting {call : WriteAtomic} {temp : TempFile} {written : Nat} {error : IoError} :
      Acts fs (.writeAll call temp written) fs (.removeTemp call temp error)
  | failedSyncing {call : WriteAtomic} {temp : TempFile} {error : IoError} :
      Acts fs (.syncAll call temp) fs (.removeTemp call temp error)
  | failedPublishing {call : WriteAtomic} {temp : TempFile} {error : IoError} :
      Acts fs (.publish call temp) fs (.removeTemp call temp error)
  | parentSynced {call : WriteAtomic} :
      Acts fs (.syncParent call) (fs.flushDir fun n => n.parent == call.path.parent) (.returned call (.ok ()))
  | parentNotSynced {call : WriteAtomic} : Acts fs (.syncParent call) fs (.returned call (.ok ()))
  | removed {call : WriteAtomic} {temp : TempFile} {error : IoError} :
      Acts fs (.removeTemp call temp error) (fs.remove temp.tmp) (.returned call (.error error))
  | notRemoved {call : WriteAtomic} {temp : TempFile} {error : IoError} :
      Acts fs (.removeTemp call temp error) fs (.returned call (.error error))
  | opened {path : PathBuf} {file : Nat} :
      fs.lookup path = some file → Acts fs (.openRead path) fs (.readToEnd path file [])
  | notOpened {path : PathBuf} {error : IoError} : Acts fs (.openRead path) fs (.read path (.error error))
  | transferred {path : PathBuf} {file n : Nat} {text : List UInt8} :
      Acts fs (.readToEnd path file text) fs
        (.readToEnd path file (text ++ (((fs.inodes[file]?.map fun x => x.bytes).getD []).drop text.length).take n))
  | readAll {path : PathBuf} {file : Nat} {text : List UInt8} :
      ((fs.inodes[file]?.map fun x => x.bytes).getD []).drop text.length = [] →
      Acts fs (.readToEnd path file text) fs (.read path (.ok text))
  | failedReading {path : PathBuf} {file : Nat} {text : List UInt8} {error : IoError} :
      Acts fs (.readToEnd path file text) fs (.read path (.error error))
  | died {t : FileTask} : Acts fs t fs .killed

/-- The names of temporary files begin with a dot. -/
theorem isHidden_tempName (path : PathBuf) (fileName : String) (pid random : Nat) :
    (path.withFileName (tempName fileName pid random)).isHidden = true := by
  simp [PathBuf.isHidden, PathBuf.withFileName, tempName]

/-- A round of the search for a free name ends in one of the acts listed. -/
theorem acts_tempRound {call : WriteAtomic} {tries : Nat} {c : Outcome} {fs fs' : FileSystem} {t' : FileTask}
    (h : tempRound call tries c fs = (fs', t')) : Acts fs (.createUniqueTemp call tries) fs' t' := by
  unfold tempRound at h
  split at h
  · cases h
    exact .refused
  · cases h
    exact .refused
  · dsimp only at h
    split at h
    · rename_i hcreate
      cases h
      exact .created (isHidden_tempName _ _ _ _) rfl hcreate
    · cases h
      exact .retried
  · cases h
    exact .refused
  · split at h
    · cases h
      exact .retried
    · cases h
      exact .refused
  · cases h
    exact .died

/-- So does every act of a task, whatever fault is injected. -/
theorem acts_of_act {t t' : FileTask} {c : Outcome} {fs fs' : FileSystem}
    (h : t.act c fs = some (fs', t')) : Acts fs t fs' t' := by
  unfold FileTask.act at h
  split at h
  · cases h
  · cases h
  · cases h
  · cases h
    exact .died
  · exact acts_tempRound (Option.some.inj h)
  · cases h
  · dsimp only at h
    split at h
    · rename_i hrest
      cases h
      exact .wroteAll hrest
    · split at h
      · cases h
        exact .failedWriting
      · cases h
        exact .wrote
  · cases h
    exact .failedWriting
  · cases h
    exact .synced
  · cases h
    exact .failedSyncing
  · split at h
    · rename_i hrename
      cases h
      exact .published hrename
    · cases h
      exact .failedPublishing
  · cases h
    exact .failedPublishing
  · cases h
    exact .parentSynced
  · cases h
    exact .parentNotSynced
  · cases h
    exact .removed
  · cases h
    exact .notRemoved
  · split at h
    · rename_i hlookup
      cases h
      exact .opened hlookup
    · cases h
      exact .notOpened
  · cases h
    exact .notOpened
  · dsimp only at h
    split at h
    · rename_i hrest
      cases h
      exact .readAll hrest
    · cases h
      exact .transferred
  · cases h
    exact .failedReading

/-- Everything a step can be. -/
theorem move_cases {p p' : FilePool} {m : FileMove} (h : fileTasks.sys.step p m = some p') :
    (∃ i t, m = .spawn i t ∧ t.entry = true ∧ p.tasks[i]? = none ∧ p' = p.put p.shared i (some t)) ∨
    (∃ i c t fs' t', m = .act i c ∧ p.tasks[i]? = some t ∧ t.act c p.shared = some (fs', t') ∧
      Acts p.shared t fs' t' ∧ p' = p.put fs' i (some t')) := by
  rcases step_cases h with ⟨i, t, hm, he, hn, hp⟩ | ⟨i, c, t, r, hm, ht, hr, hp⟩
  · exact Or.inl ⟨i, t, hm, he, hn, hp⟩
  · obtain ⟨⟨fs', t'⟩, hact, rfl⟩ := Option.map_eq_some_iff.mp hr
    exact Or.inr ⟨i, c, t, fs', t', hm, ht, hact, acts_of_act hact, hp⟩

/-! ## A step touches one file -/

/-- Every binding is to an inode that exists. -/
def Bounded (fs : FileSystem) : Prop := ∀ n i, some i ∈ fs.possible n → i < fs.inodes.length

/-- A step that writes and binds the inode `f` only. -/
structure Touches (f : Nat) (fs fs' : FileSystem) : Prop where
  inodes : ∀ k x, k ≠ f → fs.inodes[k]? = some x → fs'.inodes[k]? = some x
  lookup : ∀ n k, k ≠ f → n.isHidden = true → fs.lookup n = some k → fs'.lookup n = some k
  unlinked : ∀ n k, k ≠ f → fs.Unlinked k n → fs'.Unlinked k n
  bounded : Bounded fs → Bounded fs'

/-- A write touches its own file only. -/
theorem touches_append {f : Nat} {fs : FileSystem} {bytes : List UInt8} : Touches f fs (fs.append f bytes) where
  inodes k x hk hx := by rw [Fs.getElem?_append_ne hk, hx]
  lookup _ _ _ _ h := h
  unlinked _ _ _ h := h
  bounded h n i hi := by
    rw [Fs.length_append]
    exact h n i hi

/-- So does a flush. -/
theorem touches_flush {f : Nat} {fs : FileSystem} : Touches f fs (fs.flush f) where
  inodes k x hk hx := by rw [Fs.getElem?_flush_ne hk, hx]
  lookup _ _ _ _ h := h
  unlinked _ _ _ h := h
  bounded h n i hi := by
    rw [Fs.length_flush]
    exact h n i hi

/-- The flush of a directory touches no file. -/
theorem touches_flushDir {f : Nat} {fs : FileSystem} {inDir : PathBuf → Bool} :
    Touches f fs (fs.flushDir inDir) where
  inodes _ _ _ hx := hx
  lookup n k _ _ h := by rw [Fs.lookup_flushDir, h]
  unlinked _ _ _ h hin := h (Fs.mem_possible_flushDir hin)
  bounded h n i hi := h n i (Fs.mem_possible_flushDir hi)

/-- The name `n` gets bound: to `f`, or to nothing while it is bound to `f`. -/
theorem touches_bind {f : Nat} {fs : FileSystem} {n : PathBuf} {o : Option Nat} (ho : ∀ k, o = some k → k = f)
    (hf : ∀ k, o = some k → k < fs.inodes.length) (hn : n.isHidden = true → ∀ k, fs.lookup n = some k → k = f) :
    Touches f fs (fs.bind n o) where
  inodes _ _ _ hx := hx
  lookup m k hk hm h := by
    rw [Fs.lookup_bind, if_neg, h]
    rintro rfl
    exact hk (hn hm k h)
  unlinked m k hk h := by
    rw [Fs.Unlinked, Fs.possible_bind]
    split
    · rename_i hm
      subst hm
      intro hin
      rcases List.mem_cons.mp hin with heq | hold
      · exact hk (ho k heq.symm)
      · exact h hold
    · exact h
  bounded h m i hi := by
    rw [Fs.possible_bind] at hi
    split at hi
    · rcases List.mem_cons.mp hi with heq | hold
      · exact hf i heq.symm
      · exact h n i hold
    · exact h m i hi

/-- Two steps on the same file are one. -/
theorem Touches.trans {f : Nat} {fs fs' fs'' : FileSystem} (h : Touches f fs fs') (h' : Touches f fs' fs'') :
    Touches f fs fs'' where
  inodes k x hk hx := h'.inodes k x hk (h.inodes k x hk hx)
  lookup n k hk hn hl := h'.lookup n k hk hn (h.lookup n k hk hn hl)
  unlinked n k hk hu := h'.unlinked n k hk (h.unlinked n k hk hu)
  bounded hb := h'.bounded (h.bounded hb)

/-- A new file is touched by its creation, and no other. -/
theorem touches_createNew {fs fs' : FileSystem} {n : PathBuf} {mode : Option Nat} {f : Nat}
    (h : fs.createNew n mode = some (fs', f)) : Touches f fs fs' := by
  obtain ⟨hfree, rfl, rfl⟩ := Fs.createNew_eq_some h
  have hgrown : Touches fs.inodes.length fs { fs with inodes := fs.inodes ++ [Inode.fresh mode] } :=
    { inodes := fun k x _ hx => by
        rw [List.getElem?_append_left (List.getElem?_eq_some_iff.mp hx).1, hx]
      lookup := fun _ _ _ _ h => h
      unlinked := fun _ _ _ h => h
      bounded := fun hb n i hi => by
        rw [List.length_append]
        exact Nat.lt_add_right _ (hb n i hi) }
  refine hgrown.trans (touches_bind (fun k hk => (Option.some.inj hk).symm) ?_ ?_)
  · intro k hk
    rw [← Option.some.inj hk, List.length_append]
    exact Nat.lt_succ_self _
  · intro _ k hk
    have hnone : fs.lookup n = some k := hk
    rw [hfree] at hnone
    cases hnone

/-- Removing a name touches the file that it was bound to. -/
theorem touches_remove {f : Nat} {fs : FileSystem} {n : PathBuf} (h : fs.lookup n = some f) :
    Touches f fs (fs.remove n) := by
  refine touches_bind (fun k hk => (by cases hk)) (fun k hk => (by cases hk)) fun _ k hk => ?_
  rw [h] at hk
  exact (Option.some.inj hk).symm

/-- A rename from a file's own name to a visible one touches that file: the one that was there is not written
    to. -/
theorem touches_rename {f : Nat} {fs fs' : FileSystem} {source target : PathBuf} (hb : Bounded fs)
    (hsource : fs.lookup source = some f) (hne : source ≠ target) (htarget : target.isHidden = false)
    (h : fs.rename source target = some fs') : Touches f fs fs' := by
  obtain ⟨i, hi, rfl⟩ := Fs.rename_eq_some hne h
  obtain rfl : f = i := Option.some.inj (hsource.symm.trans hi)
  have hbound : f < fs.inodes.length := hb source f (hsource ▸ fs.lookup_mem_possible source)
  have hto : Touches f fs (fs.bind target (some f)) := by
    refine touches_bind (fun k hk => (Option.some.inj hk).symm) (fun k hk => ?_) fun hhidden => ?_
    · exact Option.some.inj hk ▸ hbound
    · rw [htarget] at hhidden
      cases hhidden
  refine hto.trans (touches_remove ?_)
  rw [Fs.lookup_bind, if_neg hne, hsource]

/-! ## What each task relies on -/

/-- The temporary file is there under its own name and under no other. -/
structure Holds (A : PathBuf → Option Image → Prop) (fs : FileSystem) (call : WriteAtomic) (temp : TempFile)
    (x : Inode) : Prop where
  inode : fs.inodes[temp.file]? = some x
  bound : fs.lookup temp.tmp = some temp.file
  hidden : temp.tmp.isHidden = true
  unlinked : ∀ n, n ≠ temp.tmp → fs.Unlinked temp.file n
  mode : x.mode = call.mode
  visible : call.path.isHidden = false
  allowed : A call.path (some call.image)

/-- What a task at its position relies on.  `A path` is what may be read at `path`. -/
def FileTask.Relies (A : PathBuf → Option Image → Prop) (fs : FileSystem) : FileTask → Prop
  | .createUniqueTemp call _ => call.path.isHidden = false ∧ A call.path (some call.image)
  | .writeAll call temp written => ∃ x, Holds A fs call temp x ∧ x.bytes = call.contents.take written
  | .syncAll call temp => ∃ x, Holds A fs call temp x ∧ x.bytes = call.contents
  | .publish call temp => ∃ x, Holds A fs call temp x ∧ x.bytes = call.contents ∧ x.flushed = true
  | .removeTemp call temp _ => ∃ x, Holds A fs call temp x
  | .openRead path => path.isHidden = false
  | .readToEnd path file text =>
    ∃ x, fs.inodes[file]? = some x ∧ A path (some x.toImage) ∧ text <+: x.bytes
  | .read path (.ok text) => ∃ mode, A path (some ⟨text, mode⟩)
  | _ => True

/-- What a call holds is not disturbed by steps on other files. -/
theorem Holds.frame {A : PathBuf → Option Image → Prop} {f : Nat} {fs fs' : FileSystem} {call : WriteAtomic}
    {temp : TempFile} {x : Inode} (h : Holds A fs call temp x) (ht : Touches f fs fs') (hne : temp.file ≠ f) :
    Holds A fs' call temp x :=
  { h with
    inode := ht.inodes _ _ hne h.inode
    bound := ht.lookup _ _ hne h.hidden h.bound
    unlinked := fun n hn => ht.unlinked n _ hne (h.unlinked n hn) }

/-- A step that touches a file which the task has not open leaves it what it relies on. -/
theorem FileTask.Relies.frame {A : PathBuf → Option Image → Prop} {f : Nat} {fs fs' : FileSystem} {t : FileTask}
    (h : t.Relies A fs) (ht : Touches f fs fs') (hne : t.file? ≠ some f) : t.Relies A fs' := by
  have hfile : ∀ temp, t.temp? = some temp → t.file? = some temp.file → temp.file ≠ f := by
    rintro temp - hfile rfl
    exact hne hfile
  cases t with
  | writeAll call temp written =>
    obtain ⟨x, hx, hbytes⟩ := h
    exact ⟨x, hx.frame ht (hfile temp rfl rfl), hbytes⟩
  | syncAll call temp =>
    obtain ⟨x, hx, hbytes⟩ := h
    exact ⟨x, hx.frame ht (hfile temp rfl rfl), hbytes⟩
  | publish call temp =>
    obtain ⟨x, hx, hbytes⟩ := h
    exact ⟨x, hx.frame ht (hfile temp rfl rfl), hbytes⟩
  | removeTemp call temp error =>
    obtain ⟨x, hx⟩ := h
    exact ⟨x, hx.frame ht (hfile temp rfl rfl)⟩
  | readToEnd path file text =>
    obtain ⟨x, hx, hA, htext⟩ := h
    refine ⟨x, ht.inodes _ _ ?_ hx, hA, htext⟩
    rintro rfl
    exact hne rfl
  | createUniqueTemp call tries => exact h
  | syncParent call => exact h
  | returned call result => exact h
  | openRead path => exact h
  | read path result =>
    cases result with
    | ok text => exact h
    | error error => exact h
  | killed => exact h

/-- **The invariant**: what is readable is whole, and a file being written is its writer's alone. -/
structure Intact (A : PathBuf → Option Image → Prop) (p : FilePool) : Prop where
  whole : ∀ n, n.isHidden = false → Whole (A n) p.shared n
  bounded : Bounded p.shared
  relies : ∀ (i : Nat) (t : FileTask), p.tasks[i]? = some t → t.Relies A p.shared
  apart : ∀ (i j : Nat) (t u : FileTask) (f : Nat), i ≠ j → p.tasks[i]? = some t → p.tasks[j]? = some u → t.writes? = some f →
    u.file? ≠ some f

/-- The file that a task writes is the one that it has. -/
theorem FileTask.file?_of_writes? {t : FileTask} {f : Nat} (h : t.writes? = some f) : t.file? = some f := by
  cases t with
  | readToEnd path file text => cases h
  | _ => exact h

/-- An open file is being written or read. -/
theorem FileTask.file?_cases {t : FileTask} {f : Nat} (h : t.file? = some f) :
    t.writes? = some f ∨ ∃ path text, t = .readToEnd path f text := by
  cases t with
  | readToEnd path file text => exact Or.inr ⟨path, text, by rw [Option.some.inj h]⟩
  | _ => exact Or.inl h

section

variable {A : PathBuf → Option Image → Prop} {fs : FileSystem} {t : FileTask} {f : Nat}

/-- The writer of a file holds it. -/
theorem FileTask.Relies.holds (h : t.Relies A fs) (hf : t.writes? = some f) :
    ∃ call temp x, temp.file = f ∧ Holds A fs call temp x := by
  cases t with
  | writeAll call temp written =>
    obtain ⟨x, hx, -⟩ := h
    exact ⟨call, temp, x, Option.some.inj hf, hx⟩
  | syncAll call temp =>
    obtain ⟨x, hx, -⟩ := h
    exact ⟨call, temp, x, Option.some.inj hf, hx⟩
  | publish call temp =>
    obtain ⟨x, hx, -⟩ := h
    exact ⟨call, temp, x, Option.some.inj hf, hx⟩
  | removeTemp call temp error =>
    obtain ⟨x, hx⟩ := h
    exact ⟨call, temp, x, Option.some.inj hf, hx⟩
  | createUniqueTemp call tries => cases hf
  | syncParent call => cases hf
  | returned call result => cases hf
  | openRead path => cases hf
  | readToEnd path file text => cases hf
  | read path result => cases hf
  | killed => cases hf

/-- The file that a task has exists. -/
theorem FileTask.Relies.file_lt (h : t.Relies A fs) (hf : t.file? = some f) : f < fs.inodes.length := by
  rcases FileTask.file?_cases hf with hw | ⟨path, text, rfl⟩
  · obtain ⟨call, temp, x, rfl, hx⟩ := h.holds hw
    exact (List.getElem?_eq_some_iff.mp hx.inode).1
  · obtain ⟨x, hx, -⟩ := h
    exact (List.getElem?_eq_some_iff.mp hx).1

/-- The file that a task writes is under no visible name, so nobody can read it half written. -/
theorem FileTask.Relies.unlinked (h : t.Relies A fs) (hf : t.writes? = some f) {n : PathBuf}
    (hn : n.isHidden = false) : fs.Unlinked f n := by
  obtain ⟨call, temp, x, rfl, hx⟩ := h.holds hf
  refine hx.unlinked n ?_
  rintro rfl
  rw [hx.hidden] at hn
  cases hn

end

/-- Doing nothing touches nothing. -/
theorem touches_refl {f : Nat} {fs : FileSystem} : Touches f fs fs :=
  ⟨fun _ _ _ h => h, fun _ _ _ _ h => h, fun _ _ _ h => h, fun h => h⟩

/-! ## What an act keeps -/

/-- What has been written and the next part of the rest make up a longer prefix. -/
theorem take_written (contents : List UInt8) (written n : Nat) :
    contents.take written ++ (contents.drop written).take n =
      contents.take (written + ((contents.drop written).take n).length) := by
  rw [List.take_add]
  congr 1
  rw [List.length_take]
  exact (List.take_eq_take_min).trans (by rw [Nat.min_comm])

/-- A reader that has a prefix of the file has a longer one after the next read. -/
theorem isPrefix_transfer {text bytes : List UInt8} (h : text <+: bytes) (n : Nat) :
    text ++ (bytes.drop text.length).take n <+: bytes := by
  obtain ⟨rest, rfl⟩ := h
  rw [List.drop_left]
  exact List.prefix_append_right_inj _ |>.mpr (List.take_prefix n rest)

/-- A prefix with nothing behind it is the whole. -/
theorem eq_of_isPrefix_of_drop {text bytes : List UInt8} (h : text <+: bytes)
    (hrest : bytes.drop text.length = []) : text = bytes := by
  obtain ⟨rest, rfl⟩ := h
  rw [List.drop_left] at hrest
  rw [hrest, List.append_nil]

section

variable {A : PathBuf → Option Image → Prop} {fs : FileSystem} {call : WriteAtomic} {temp : TempFile} {x : Inode}

/-- No visible name is the temporary one. -/
theorem Holds.tmp_ne {n : PathBuf} (h : Holds A fs call temp x) (hn : n.isHidden = false) : n ≠ temp.tmp := by
  rintro rfl
  rw [h.hidden] at hn
  cases hn

/-- After a write the call holds its file with the bytes at its end. -/
theorem Holds.append (h : Holds A fs call temp x) (bytes : List UInt8) :
    Holds A (fs.append temp.file bytes) call temp { x with bytes := x.bytes ++ bytes, flushed := false } :=
  { h with inode := Fs.getElem?_append_self h.inode bytes }

/-- After a flush the call holds its file, flushed. -/
theorem Holds.flush (h : Holds A fs call temp x) :
    Holds A (fs.flush temp.file) call temp { x with flushed := true } :=
  { h with inode := Fs.getElem?_flush_self h.inode }

/-- A call holds the file that it has just created. -/
theorem holds_created {fs' : FileSystem} (hb : Bounded fs) (hidden : temp.tmp.isHidden = true)
    (hcreate : fs.createNew temp.tmp call.mode = some (fs', temp.file)) (hvisible : call.path.isHidden = false)
    (hA : A call.path (some call.image)) : Holds A fs' call temp (Inode.fresh call.mode) := by
  obtain ⟨-, hlast, rfl⟩ := Fs.createNew_eq_some hcreate
  refine ⟨?_, ?_, hidden, fun n hn hin => ?_, rfl, hvisible, hA⟩
  · rw [hlast]
    exact List.getElem?_concat_length
  · rw [Fs.lookup_bind, if_pos rfl]
  · rw [Fs.possible_bind, if_neg hn] at hin
    exact absurd (hb n _ hin) (by rw [hlast]; exact Nat.lt_irrefl _)

end

section

variable {A : PathBuf → Option Image → Prop} {p : FilePool} {i : Nat} {t t' : FileTask} {fs' : FileSystem}

/-- **What an act touches**: the file that its task writes, or a new one. -/
theorem Intact.touches (h : Intact A p) (ht : p.tasks[i]? = some t) (hact : Acts p.shared t fs' t') :
    ∃ f, Touches f p.shared fs' ∧ (t.writes? = some f ∨ p.shared.inodes.length ≤ f) := by
  have hrel := h.relies i t ht
  cases hact with
  | created _ _ hcreate =>
    obtain ⟨-, hlast, -⟩ := Fs.createNew_eq_some hcreate
    exact ⟨_, touches_createNew hcreate, Or.inr (Nat.le_of_eq hlast.symm)⟩
  | wrote => exact ⟨_, touches_append, Or.inl rfl⟩
  | synced => exact ⟨_, touches_flush, Or.inl rfl⟩
  | published hrename =>
    obtain ⟨x, hx, -⟩ := hrel
    have hne := fun heq => hx.tmp_ne hx.visible (Eq.symm heq)
    exact ⟨_, touches_rename h.bounded hx.bound hne hx.visible hrename, Or.inl rfl⟩
  | parentSynced => exact ⟨_, touches_flushDir, Or.inr (Nat.le_refl _)⟩
  | removed =>
    obtain ⟨x, hx⟩ := hrel
    exact ⟨_, touches_remove hx.bound, Or.inl rfl⟩
  | _ => exact ⟨_, touches_refl, Or.inr (Nat.le_refl _)⟩

/-- **What a task has open after an act**: what it had, a new file, or one that it opens to read. -/
theorem Acts.files {fs : FileSystem} (hact : Acts fs t fs' t') {k : Nat} (hk : t'.file? = some k) :
    (t.file? = some k ∧ (t'.writes? = some k → t.writes? = some k)) ∨ fs.inodes.length ≤ k ∨
      t'.writes? = none ∧ ∃ n, t = .openRead n ∧ fs.lookup n = some k := by
  cases hact with
  | created _ _ hcreate =>
    obtain ⟨-, hlast, -⟩ := Fs.createNew_eq_some hcreate
    exact Or.inr (Or.inl (Nat.le_of_eq (hlast.symm.trans (Option.some.inj hk))))
  | opened hlookup => exact Or.inr (Or.inr ⟨rfl, _, rfl, hlookup.trans hk⟩)
  | refused => cases hk
  | published => cases hk
  | parentSynced => cases hk
  | parentNotSynced => cases hk
  | removed => cases hk
  | notRemoved => cases hk
  | notOpened => cases hk
  | readAll => cases hk
  | failedReading => cases hk
  | died => cases hk
  | _ => exact Or.inl ⟨hk, id⟩

/-- What a writer holds is at no path that is read. -/
theorem Intact.unlinked {f : Nat} (h : Intact A p) (ht : p.tasks[i]? = some t) (hwrites : t.writes? = some f)
    {n : PathBuf} (hn : n.isHidden = false) : p.shared.Unlinked f n :=
  (h.relies i t ht).unlinked hwrites hn

/-- **What is read stays whole**: only a rename changes it, and what it shows then is complete and flushed. -/
theorem Intact.whole_act (h : Intact A p) (ht : p.tasks[i]? = some t) (hact : Acts p.shared t fs' t') {n : PathBuf}
    (hn : n.isHidden = false) : Whole (A n) fs' n := by
  have hrel := h.relies i t ht
  have hwhole := h.whole n hn
  cases hact with
  | created hidden _ hcreate =>
    refine hwhole.createNew hcreate ?_
    rintro rfl
    rw [hidden] at hn
    cases hn
  | wrote => exact hwhole.append (h.unlinked ht rfl hn)
  | synced => exact hwhole.flush
  | @published call temp fs' hrename =>
    obtain ⟨x, hx, hbytes, hflushed⟩ := hrel
    obtain ⟨f, hf, rfl⟩ := Fs.rename_eq_some (fun heq => hx.tmp_ne hx.visible heq.symm) hrename
    obtain rfl : temp.file = f := Option.some.inj (hx.bound.symm.trans hf)
    refine Whole.bind_other ?_ (hx.tmp_ne hn)
    by_cases hpath : n = call.path
    · subst hpath
      refine hwhole.bind (sound_some hx.inode hflushed ?_)
      rw [show x.toImage = call.image from Image.ext hbytes hx.mode]
      exact hx.allowed
    · exact hwhole.bind_other hpath
  | parentSynced => exact hwhole.flushDir
  | removed =>
    obtain ⟨x, hx⟩ := hrel
    exact hwhole.bind_other (hx.tmp_ne hn)
  | _ => exact hwhole

/-- **What the task relies on next**. -/
theorem Intact.relies_act (h : Intact A p) (ht : p.tasks[i]? = some t) (hact : Acts p.shared t fs' t') :
    t'.Relies A fs' := by
  have hrel := h.relies i t ht
  cases hact with
  | retried => exact hrel
  | created hidden _ hcreate => exact ⟨_, holds_created h.bounded hidden hcreate hrel.1 hrel.2, rfl⟩
  | wrote =>
    obtain ⟨x, hx, hbytes⟩ := hrel
    refine ⟨_, hx.append _, ?_⟩
    rw [← take_written]
    exact congrArg (· ++ _) hbytes
  | wroteAll hrest =>
    obtain ⟨x, hx, hbytes⟩ := hrel
    exact ⟨x, hx, hbytes.trans (List.take_of_length_le (List.drop_eq_nil_iff.mp hrest))⟩
  | synced =>
    obtain ⟨x, hx, hbytes⟩ := hrel
    exact ⟨_, hx.flush, hbytes, rfl⟩
  | failedWriting =>
    obtain ⟨x, hx, -⟩ := hrel
    exact ⟨x, hx⟩
  | failedSyncing =>
    obtain ⟨x, hx, -⟩ := hrel
    exact ⟨x, hx⟩
  | failedPublishing =>
    obtain ⟨x, hx, -⟩ := hrel
    exact ⟨x, hx⟩
  | @opened path file hlookup =>
    obtain ⟨hA, hinode⟩ := h.whole path hrel _ (p.shared.lookup_mem_possible path)
    obtain ⟨x, hx, -⟩ := hinode file hlookup
    rw [hlookup, Fs.imageAt_some, hx] at hA
    exact ⟨x, hx, hA, List.nil_prefix⟩
  | transferred =>
    obtain ⟨x, hx, hA, htext⟩ := hrel
    refine ⟨x, hx, hA, ?_⟩
    rw [hx]
    exact isPrefix_transfer htext _
  | readAll hrest =>
    obtain ⟨x, hx, hA, htext⟩ := hrel
    rw [hx] at hrest
    exact ⟨x.mode, by rw [eq_of_isPrefix_of_drop htext hrest]; exact hA⟩
  | _ => trivial

/-- The files that the others have open stay as they are. -/
theorem Intact.frame {f j : Nat} {u : FileTask} (h : Intact A p) (ht : p.tasks[i]? = some t) (hij : i ≠ j)
    (hu : p.tasks[j]? = some u) (hf : t.writes? = some f ∨ p.shared.inodes.length ≤ f) : u.file? ≠ some f := by
  intro hfile
  rcases hf with hwriter | hnew
  · exact h.apart i j t u f hij ht hu hwriter hfile
  · exact absurd ((h.relies j u hu).file_lt hfile) (Nat.not_lt.mpr hnew)

/-- **Every act keeps the invariant**: the task that acts relies on the new state by what its own act has
    done, and the others rely on what that act leaves alone. -/
theorem Intact.act (h : Intact A p) (ht : p.tasks[i]? = some t) (hact : Acts p.shared t fs' t') :
    Intact A (p.put fs' i (some t')) := by
  have hother : ∀ {j : Nat} {u : FileTask}, i ≠ j → (p.put fs' i (some t')).tasks[j]? = some u →
      p.tasks[j]? = some u := by
    intro j u hij hu
    rwa [Pool.tasks_put, if_neg hij] at hu
  have hself : ∀ {u : FileTask}, (p.put fs' i (some t')).tasks[i]? = some u → u = t' := by
    intro u hu
    rw [Pool.tasks_put, if_pos rfl] at hu
    exact (Option.some.inj hu).symm
  obtain ⟨f, htouch, hf⟩ := h.touches ht hact
  refine ⟨fun n hn => h.whole_act ht hact hn, htouch.bounded h.bounded, fun j u hu => ?_,
    fun j k u v g hjk hu hv hg => ?_⟩
  · by_cases hij : i = j
    · subst hij
      rw [hself hu]
      exact h.relies_act ht hact
    · exact (h.relies j u (hother hij hu)).frame htouch (h.frame ht hij (hother hij hu) hf)
  · by_cases hij : i = j
    · -- the task that has acted writes: what it wrote, or a new file
      subst hij
      rw [hself hu] at hg
      refine h.frame ht hjk (hother hjk hv) ?_
      rcases hact.files (FileTask.file?_of_writes? hg) with ⟨-, hold⟩ | hnew | ⟨hreads, -⟩
      · exact Or.inl (hold hg)
      · exact Or.inr hnew
      · rw [hreads] at hg
        cases hg
    · by_cases hik : i = k
      · -- it has a file open, and another writes
        subst hik
        rw [hself hv]
        have hrel := h.relies j u (hother hij hu)
        intro hfile
        rcases hact.files hfile with ⟨hold, -⟩ | hnew | ⟨-, n, rfl, hlookup⟩
        · exact h.apart j i u t g hjk (hother hij hu) ht hg hold
        · exact absurd (hrel.file_lt (FileTask.file?_of_writes? hg)) (Nat.not_lt.mpr hnew)
        · exact hrel.unlinked hg (h.relies i _ ht) (hlookup ▸ p.shared.lookup_mem_possible n)
      · exact h.apart j k u v g hjk (hother hij hu) (hother hik hv) hg

end

end Atomic

end Tellm
