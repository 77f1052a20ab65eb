/-
  ATOMIC WRITES over whole runs: what readers and crashes see of config.toml, rooms.toml, credentials.toml.

  1. **`never_torn`**: at every moment, and after power loss at any moment, a file is what it was at the
     start or all of what one call wrote; so is what a reader got, however its reads were interleaved.
  2. **`atomic_register`**: a call takes effect at one instant, its rename, if it returns `Ok`, and not at
     all if it returns an error; a reader sees one instant between its start and its end.
  3. **`durable`**: what was there when the directory was flushed survives power loss until it is replaced.
  4. **`no_litter`**: unless a process dies or a removal fails, no temporary file outlives its call.

  The system is that of `Tellm.Atomic`, with power loss as one more event; a power loss ends all tasks and
  leaves each name at one of the bindings that were possible, with the bytes of unflushed files
  arbitrary.  The directory at the start is settled: everything in it is on the disk.

  The four theorems are read off the invariant with the history of the run.  `Complete` is the set of the
  images that a name may show, those of the start and of the calls that began; `publishes` is the step at
  which a call takes effect, the rename; `lastPublished` folds the publications.  A reader is followed
  from its opening to its end (`ReadsOpened`).

  The order of flush and rename is what is used everywhere: a file is flushed before it gets a visible
  name, and that name is on the disk once the directory has been flushed.
-/
import Tellm.Atomic

namespace Tellm

open Runs Tasks Files

namespace Atomic

/-! ## Runs keep files intact -/

/-- Everything is on the disk, as after a start of the machine. -/
def Settled (fs : FileSystem) : Prop :=
  ∀ n, (fs.entries n).before = [] ∧ ∀ i, fs.lookup n = some i → ∃ x, fs.inodes[i]? = some x ∧ x.flushed = true

/-- Where all is settled, a name has the one binding that the programs see. -/
theorem Settled.possible {fs : FileSystem} (h : Settled fs) (n : PathBuf) : fs.possible n = [fs.lookup n] := by
  rw [Fs.possible, (h n).1]
  rfl

/-- Where all is settled, no name is bound to a file that does not exist. -/
theorem Settled.bounded {fs : FileSystem} (h : Settled fs) : Bounded fs := by
  intro n i hi
  rw [h.possible, List.mem_singleton] at hi
  obtain ⟨x, hx, -⟩ := (h n).2 i hi.symm
  exact (List.getElem?_eq_some_iff.mp hx).1

/-- So is what power loss leaves. -/
theorem settled_powerLoss {fs : FileSystem} (hb : Bounded fs) (loss : Loss PathBuf) :
    Settled (fs.powerLoss loss) := by
  intro n
  refine ⟨rfl, fun i hi => ?_⟩
  have hlt := hb n i (hi ▸ lookup_powerLoss_mem fs loss n)
  simp only [Fs.powerLoss, List.getElem?_mapIdx, List.getElem?_eq_getElem hlt, Option.map_some]
  refine ⟨_, rfl, ?_⟩
  split
  · assumption
  · rfl

/-- What may be read of the calls that start: `A` allows their images. -/
def Allows (A : PathBuf → Option Image → Prop) : Event → Prop
  | .move (.spawn _ (.createUniqueTemp call _)) => A call.path (some call.image)
  | _ => True

/-- With no call under way, intact says no more than that every visible name is whole. -/
theorem intact_idle {A : PathBuf → Option Image → Prop} {fs : FileSystem} (hb : Bounded fs)
    (hw : ∀ n, n.isHidden = false → Whole (A n) fs n) : Intact A (Pool.idle fs) := by
  have hnone : ∀ {i : Nat} {t : FileTask}, (Pool.idle fs : FilePool).tasks[i]? ≠ some t := by
    intro i t ht
    rw [Pool.idle, Std.ExtTreeMap.getElem?_empty] at ht
    cases ht
  exact ⟨hw, hb, fun i t ht => absurd ht hnone, fun i j t u f _ ht => absurd ht hnone⟩

/-- A call that begins keeps the pool intact, if the image that it is to write is among the acceptable
    ones. -/
theorem Intact.spawn {A : PathBuf → Option Image → Prop} {p : FilePool} {i : Nat} {t : FileTask}
    (h : Intact A p) (he : t.entry = true) (hA : Allows A (.move (.spawn i t))) :
    Intact A (p.put p.shared i (some t)) := by
  -- a task that starts has no file
  have hstart : t.Relies A p.shared ∧ t.file? = none := by
    cases t with
    | createUniqueTemp call tries =>
      simp only [FileTask.entry, Bool.and_eq_true, Bool.not_eq_true'] at he
      exact ⟨⟨he.2, hA⟩, rfl⟩
    | openRead path =>
      simp only [FileTask.entry, Bool.not_eq_true'] at he
      exact ⟨he, rfl⟩
    | _ => cases he
  have hcases : ∀ {j : Nat} {u : FileTask}, (p.put p.shared i (some t)).tasks[j]? = some u →
      u = t ∨ p.tasks[j]? = some u := by
    intro j u hu
    rw [Pool.tasks_put] at hu
    split at hu
    · exact Or.inl (Option.some.inj hu).symm
    · exact Or.inr hu
  refine ⟨h.whole, h.bounded, fun j u hu => ?_, fun j k u v f hjk hu hv hf hfile => ?_⟩
  · rcases hcases hu with rfl | hu
    · exact hstart.1
    · exact h.relies j u hu
  · rcases hcases hv with rfl | hv
    · rw [hstart.2] at hfile
      cases hfile
    · rcases hcases hu with rfl | hu
      · have hopen := FileTask.file?_of_writes? hf
        rw [hstart.2] at hopen
        cases hopen
      · exact h.apart j k u v f hjk hu hv hf hfile

/-- A power loss leaves every visible name whole, at one of the bindings that were possible. -/
theorem Intact.powerLoss {A : PathBuf → Option Image → Prop} {p : FilePool} (h : Intact A p)
    (loss : Loss PathBuf) : Intact A (Pool.idle (p.shared.powerLoss loss)) :=
  intact_idle (settled_powerLoss h.bounded loss).bounded fun n hn => (h.whole n hn).powerLoss loss

/-- Every step, a move of a task, a kill or a power loss, keeps the pool intact. -/
theorem Intact.step {A : PathBuf → Option Image → Prop} {p p' : FilePool} {e : Event} (h : Intact A p)
    (hA : Allows A e) (hs : sys.step p e = some p') : Intact A p' := by
  cases e with
  | powerLoss loss => exact Option.some.inj hs ▸ h.powerLoss loss
  | move m =>
    rcases move_cases hs with ⟨i, t, rfl, he, -, rfl⟩ | ⟨i, c, t, fs', t', rfl, ht, -, hact, rfl⟩
    · exact h.spawn he hA
    · exact h.act ht hact

/-- The steps so far, newest first. -/
abbrev FileRun := List (FilePool × Event)

/-- So does a whole run, if each call that begins in it may. -/
theorem intact_of_path {A : PathBuf → Option Image → Prop} {p₀ p : FilePool} {h : FileRun} (h0 : Intact A p₀)
    (hpath : Path sys p₀ h p) (hA : ∀ x ∈ h, Allows A x.2) : Intact A p :=
  hpath.invariant_of_forall (G := fun _ e => Allows A e) h0 (fun _ _ _ hI hG hs => hI.step hG hs) hA

/-! ## No reader sees half a file -/

/-- The call was made in the run. -/
def Requested (h : FileRun) (call : WriteAtomic) : Prop :=
  ∃ x ∈ h, ∃ i tries, x.2 = .move (.spawn i (.createUniqueTemp call tries))

/-- What was there at the start, or all that some call wrote. -/
def Complete (fs₀ : FileSystem) (h : FileRun) (n : PathBuf) (o : Option Image) : Prop :=
  o = fs₀.image n ∨ ∃ call, Requested h call ∧ call.path = n ∧ o = some call.image

/-- The images that a run's own calls are to write are acceptable by definition. -/
theorem allows_complete (fs₀ : FileSystem) (h : FileRun) : ∀ x ∈ h, Allows (Complete fs₀ h) x.2 := by
  intro x hx
  unfold Allows
  split
  · rename_i i call tries heq
    exact Or.inr ⟨call, ⟨x, hx, i, tries, heq⟩, rfl, rfl⟩
  · trivial

/-- A settled directory with nothing under way is intact. -/
theorem intact_start {fs₀ : FileSystem} (hstart : Settled fs₀) (h : FileRun) :
    Intact (Complete fs₀ h) (Pool.idle fs₀) := by
  refine intact_idle hstart.bounded fun n _ o ho => ?_
  rw [hstart.possible, List.mem_singleton] at ho
  subst ho
  exact ⟨Or.inl rfl, (hstart n).2⟩

/-- In every state of a run each visible name shows, and would show after a power loss, a complete image: one
    from the start, or one that a call of the run was to write. -/
theorem intact_complete {fs₀ : FileSystem} (hstart : Settled fs₀) {h : FileRun} {p : FilePool}
    (hpath : Path sys (Pool.idle fs₀) h p) : Intact (Complete fs₀ h) p :=
  intact_of_path (intact_start hstart h) hpath (allows_complete fs₀ h)

/-- **A file is never torn**: whatever the writers, the readers, the failures, the kills and the power
    losses so far, the file shows what it did at the start or all that one call wrote; it would after one
    more power loss; and that is what every reader got. -/
theorem never_torn {fs₀ : FileSystem} (hstart : Settled fs₀) {h : FileRun} {p : FilePool}
    (hpath : Path sys (Pool.idle fs₀) h p) {n : PathBuf} (hn : n.isHidden = false) :
    Complete fs₀ h n (p.shared.image n) ∧
      (∀ loss, Complete fs₀ h n ((p.shared.powerLoss loss).image n)) ∧
      ∀ (i : Nat) (text : List UInt8), p.tasks[i]? = some (FileTask.read n (.ok text)) →
        ∃ mode, Complete fs₀ h n (some ⟨text, mode⟩) := by
  have hintact := intact_complete hstart hpath
  refine ⟨(hintact.whole n hn).image, fun loss => (hintact.whole n hn).image_powerLoss loss, fun i text ht => ?_⟩
  exact hintact.relies i _ ht

/-! One write of config.toml in two pieces, and one read of it meanwhile, for the runs below. -/

/-- A directory without a file. -/
def emptyDirectory : FileSystem := { entries := fun _ => { now := none }, inodes := [] }

/-- The empty directory is settled. -/
theorem settled_emptyDirectory : Settled emptyDirectory := fun _ => ⟨rfl, fun _ h => (by cases h)⟩

/-- The file that is written. -/
def configToml : PathBuf := ⟨"tellm", some "config.toml"⟩

/-- One write of it, of two bytes. -/
def configWrite : WriteAtomic := { path := configToml, contents := [1, 2], mode := none, pid := 7 }

/-- A task goes on, with these answers of the system one after the other. -/
def acts (i : Nat) (answers : List Nat) : List Event := answers.map fun n => .move (.act i (.succeeds n))

/-- The whole run. -/
def writeThenRead : List Event :=
  [.move (.spawn 0 (.createUniqueTemp configWrite 8))] ++ acts 0 [5, 1, 9, 0, 0, 0] ++
    [.move (.spawn 1 (.openRead configToml))] ++ acts 1 [0, 0] ++ acts 0 [0] ++ acts 1 [5, 0]

/-- The reader of a run in which `config.toml` is written and opened has read what the call wrote. -/
theorem never_torn_config : ∃ h p, Path sys (Pool.idle emptyDirectory) h p ∧
    p.tasks[1]? = some (FileTask.read configToml (.ok [1, 2])) ∧
    ∃ mode, Complete emptyDirectory h configToml (some ⟨[1, 2], mode⟩) := by
  have hrun : (sys.run (Pool.idle emptyDirectory) writeThenRead).any (fun p =>
      p.tasks[1]? == some (FileTask.read configToml (.ok [1, 2]))) = true := by decide
  obtain ⟨h, p, hpath, hend⟩ := Sys.path_of_run_any _ hrun
  have hread := eq_of_beq hend
  exact ⟨h, p, hpath, hread, (never_torn settled_emptyDirectory hpath (by decide)).2.2 1 [1, 2] hread⟩

/-! ## A write takes effect at one instant -/

/-- The call that a step publishes, with its task: the rename succeeded. -/
def publishes : FilePool × Event → List (Nat × WriteAtomic)
  | (p, .move (.act i c)) =>
    match p.tasks[i]? with
    | some (.publish call temp) =>
      match (FileTask.publish call temp).act c p.shared with
      | some (_, .syncParent _) => [(i, call)]
      | _ => []
    | _ => []
  | _ => []

/-- The call that the task has published. -/
def FileTask.published? : FileTask → Option WriteAtomic
  | .syncParent call => some call
  | .returned call (.ok _) => some call
  | _ => none

/-- The last of the calls published so far that wrote the file; before them, what was there. -/
def lastPublished (fs₀ : FileSystem) (n : PathBuf) (calls : List (Nat × WriteAtomic)) : Option Image :=
  ((calls.filter fun x => x.2.path = n).getLast?.map fun x => x.2.image).or (fs₀.image n)

/-- The last publication decides. -/
theorem lastPublished_concat (fs₀ : FileSystem) (n : PathBuf) (calls : List (Nat × WriteAtomic)) (i : Nat)
    (call : WriteAtomic) : lastPublished fs₀ n (calls ++ [(i, call)]) =
      if call.path = n then some call.image else lastPublished fs₀ n calls := by
  unfold lastPublished
  rw [List.filter_append]
  by_cases hpath : call.path = n
  · simp [hpath]
  · simp [hpath]

/-- An act publishes, or leaves what its task has published as it is. -/
theorem publish_or_not {fs fs' : FileSystem} {t t' : FileTask} (h : Acts fs t fs' t') :
    (∃ call temp, t = .publish call temp ∧ t' = .syncParent call ∧
      fs.rename temp.tmp call.path = some fs') ∨
    ((∀ call temp call', t = .publish call temp → t' ≠ .syncParent call') ∧
      (t' = .killed ∨ t'.published? = t.published?)) := by
  cases h with
  | published hrename => exact Or.inl ⟨_, _, rfl, rfl, hrename⟩
  | died => exact Or.inr ⟨fun _ _ _ _ h => (by cases h), Or.inl rfl⟩
  | _ => exact Or.inr ⟨fun _ _ _ _ h => (by cases h), Or.inr rfl⟩

section

variable {A : PathBuf → Option Image → Prop} {p : FilePool} {i : Nat} {c : Outcome} {t t' : FileTask}
  {fs' : FileSystem}

/-- The step from the rename to the directory flush publishes the call's image, once. -/
theorem publishes_of_publish {call : WriteAtomic} {temp : TempFile} (ht : p.tasks[i]? = some (.publish call temp))
    (hact : (FileTask.publish call temp).act c p.shared = some (fs', .syncParent call)) :
    publishes (p, .move (.act i c)) = [(i, call)] := by
  simp only [publishes, ht, hact]

/-- No other step publishes anything. -/
theorem publishes_of_not (ht : p.tasks[i]? = some t) (hact : t.act c p.shared = some (fs', t'))
    (hnot : ∀ call temp call', t = .publish call temp → t' ≠ .syncParent call') :
    publishes (p, .move (.act i c)) = [] := by
  simp only [publishes, ht]
  split
  · rename_i call temp heq
    obtain rfl := Option.some.inj heq
    rw [hact]
    split
    · rename_i call' heq'
      exact absurd (Prod.mk.inj (Option.some.inj heq')).2 (hnot call temp call' rfl)
    · rfl
  · rfl

/-- Publishing replaces its own target. -/
theorem image_of_rename {call : WriteAtomic} {temp : TempFile} (h : Intact A p)
    (ht : p.tasks[i]? = some (.publish call temp)) (hrename : p.shared.rename temp.tmp call.path = some fs')
    {n : PathBuf} (hn : n.isHidden = false) :
    fs'.image n = if call.path = n then some call.image else p.shared.image n := by
  obtain ⟨x, hx, hbytes, -⟩ := h.relies i _ ht
  obtain ⟨f, hf, rfl⟩ := Fs.rename_eq_some (fun heq => hx.tmp_ne hx.visible heq.symm) hrename
  obtain rfl : temp.file = f := Option.some.inj (hx.bound.symm.trans hf)
  simp only [Fs.image, Fs.lookup_bind, if_neg (hx.tmp_ne hn)]
  by_cases hpath : n = call.path
  · rw [if_pos hpath, if_pos hpath.symm, Fs.imageAt_some, Fs.inodes_bind, Fs.inodes_bind, hx.inode]
    exact congrArg some (Image.ext hbytes hx.mode)
  · rw [if_neg hpath, if_neg fun h => hpath h.symm]
    rfl

/-- No other act changes what is read. -/
theorem image_of_not_publish (h : Intact A p) (ht : p.tasks[i]? = some t) (hact : Acts p.shared t fs' t')
    (hnot : ∀ call temp call', t = .publish call temp → t' ≠ .syncParent call') {n : PathBuf}
    (hn : n.isHidden = false) : fs'.image n = p.shared.image n := by
  have hother : ∀ {temp : TempFile}, t.writes? = some temp.file → p.shared.lookup n ≠ some temp.file :=
    fun hw hlookup => h.unlinked ht hw hn (hlookup ▸ p.shared.lookup_mem_possible n)
  -- what the name is bound to shows the same when its inode is the same
  have hsame : ∀ {fs'' : FileSystem}, fs''.lookup n = p.shared.lookup n →
      (∀ k, p.shared.lookup n = some k → fs''.inodes[k]? = p.shared.inodes[k]?) →
      fs''.image n = p.shared.image n := by
    intro fs'' hlookup hinodes
    rw [Fs.image, Fs.image, hlookup]
    cases hk : p.shared.lookup n with
    | none => rfl
    | some k => rw [Fs.imageAt_some, Fs.imageAt_some, hinodes k hk]
  cases hact with
  | @created call tries fs' temp hidden _ hcreate =>
    have hne : n ≠ temp.tmp := by
      rintro rfl
      rw [hidden] at hn
      cases hn
    obtain ⟨-, -, rfl⟩ := Fs.createNew_eq_some hcreate
    refine hsame (by rw [Fs.lookup_bind, if_neg hne]; rfl) fun k hk => ?_
    exact List.getElem?_append_left (h.bounded n k (hk ▸ p.shared.lookup_mem_possible n))
  | wrote =>
    refine hsame rfl fun k hk => Fs.getElem?_append_ne ?_ _
    rintro rfl
    exact hother rfl hk
  | synced =>
    refine hsame rfl fun k hk => Fs.getElem?_flush_ne ?_
    rintro rfl
    exact hother rfl hk
  | published => exact absurd rfl (hnot _ _ _ rfl)
  | parentSynced => exact hsame (Fs.lookup_flushDir _ _ _) fun _ _ => rfl
  | removed =>
    obtain ⟨x, hx⟩ := h.relies i _ ht
    exact hsame (by rw [Fs.remove, Fs.lookup_bind, if_neg (hx.tmp_ne hn)]) fun _ _ => rfl
  | _ => rfl

end

/-- No power loss in the run. -/
def Powered (h : FileRun) : Prop := ∀ x ∈ h, x.2.isMove = true

/-- An event that is a move is one of the pool's moves. -/
theorem Event.eq_move {e : Event} (h : e.isMove = true) : ∃ m, e = .move m := by
  cases e with
  | move m => exact ⟨m, rfl⟩
  | powerLoss loss => cases h

/-- The file shows what was published last. -/
theorem image_eq_lastPublished {fs₀ : FileSystem} (hstart : Settled fs₀) {h : FileRun} {p : FilePool}
    (hpath : Path sys (Pool.idle fs₀) h p) {n : PathBuf} (hn : n.isHidden = false) :
    Powered h → p.shared.image n = lastPublished fs₀ n (log publishes h) := by
  induction hpath with
  | start => exact fun _ => rfl
  | @step h p p' e hpath hs ih =>
    intro hpowered
    have ih := ih fun x hx => hpowered x (List.mem_cons_of_mem _ hx)
    obtain ⟨m, rfl⟩ := Event.eq_move (hpowered _ List.mem_cons_self)
    rw [log_cons]
    rcases move_cases hs with ⟨i, t, rfl, -, -, rfl⟩ | ⟨i, c, t, fs', t', rfl, ht, hact, hacts, rfl⟩
    · exact ih.trans (by rw [show publishes (p, .move (.spawn i t)) = [] from rfl, List.append_nil])
    · have hintact := intact_complete hstart hpath
      rcases publish_or_not hacts with ⟨call, temp, rfl, rfl, hrename⟩ | ⟨hnot, -⟩
      · rw [publishes_of_publish ht hact, lastPublished_concat, Pool.shared_put,
          image_of_rename hintact ht hrename hn, ih]
      · rw [publishes_of_not ht hact hnot, List.append_nil, Pool.shared_put,
          image_of_not_publish hintact ht hacts hnot hn, ih]

/-- Each task's publications are those of its call, once it has published. -/
theorem log_publishes_filter {fs₀ : FileSystem} {h : FileRun} {p : FilePool}
    (hpath : Path sys (Pool.idle fs₀) h p) : Powered h → ∀ i : Nat,
      (p.tasks[i]? = none → (log publishes h).filter (fun x => x.1 = i) = []) ∧
      ∀ t : FileTask, p.tasks[i]? = some t → t ≠ .killed →
        (log publishes h).filter (fun x => x.1 = i) = t.published?.toList.map fun call => (i, call) := by
  induction hpath with
  | start =>
    refine fun _ i => ⟨fun _ => rfl, fun t ht => ?_⟩
    rw [Pool.idle, Std.ExtTreeMap.getElem?_empty] at ht
    cases ht
  | @step h p p' e hpath hs ih =>
    intro hpowered i
    have ih := ih fun x hx => hpowered x (List.mem_cons_of_mem _ hx)
    obtain ⟨m, rfl⟩ := Event.eq_move (hpowered _ List.mem_cons_self)
    rw [log_cons]
    rcases move_cases hs with ⟨j, u, rfl, he, hfree, rfl⟩ | ⟨j, c, u, fs', u', rfl, hu, hact, hacts, rfl⟩
    · rw [show publishes (p, .move (.spawn j u)) = [] from rfl, List.append_nil, Pool.tasks_put]
      split
      · rename_i hji
        subst hji
        refine ⟨fun h => (by cases h), fun t ht _ => ?_⟩
        obtain rfl := Option.some.inj ht
        rw [(ih j).1 hfree]
        cases u with
        | createUniqueTemp call tries => rfl
        | openRead path => rfl
        | _ => cases he
      · exact ih i
    · rw [List.filter_append, Pool.tasks_put]
      by_cases hji : j = i
      · subst hji
        rw [if_pos rfl]
        refine ⟨fun h => (by cases h), fun t ht hkilled => ?_⟩
        obtain rfl := Option.some.inj ht
        have hbefore := (ih j).2 u hu (by rintro rfl; cases hact)
        rcases publish_or_not hacts with ⟨call, temp, rfl, rfl, -⟩ | ⟨hnot, hsame⟩
        · rw [publishes_of_publish hu hact, hbefore]
          simp [FileTask.published?]
        · rw [publishes_of_not hu hact hnot, hbefore, hsame.resolve_left hkilled]
          exact List.append_nil _
      · rw [if_neg hji]
        have hnone : (publishes (p, .move (.act j c))).filter (fun x => x.1 = i) = [] := by
          rcases publish_or_not hacts with ⟨call, temp, rfl, rfl, -⟩ | ⟨hnot, -⟩
          · rw [publishes_of_publish hu hact]
            simp [hji]
          · rw [publishes_of_not hu hact hnot]
            rfl
        rw [hnone, List.append_nil]
        exact ih i

/-! ## A reader sees one instant -/

/-- The task `i` opened the file `n` in this step, while it showed `image`. -/
def Opened (i : Nat) (n : PathBuf) (image : Image) (y : FilePool × Event) : Prop :=
  (∃ c, y.2 = .move (.act i c)) ∧ y.1.tasks[i]? = some (FileTask.openRead n) ∧ y.1.shared.image n = some image

/-- What a reader has open is what it opened; what it got is what it opened. -/
def FileTask.ReadsOpened (fs : FileSystem) (h : FileRun) (i : Nat) : FileTask → Prop
  | .readToEnd n file _ => ∃ x, fs.inodes[file]? = some x ∧ ∃ y ∈ h, Opened i n x.toImage y
  | .read n (.ok text) => ∃ mode, ∃ y ∈ h, Opened i n ⟨text, mode⟩ y
  | _ => True

/-- What a reader is to return is not changed by steps that touch other files than the one it has opened. -/
theorem FileTask.ReadsOpened.frame {fs fs' : FileSystem} {h : FileRun} {x : FilePool × Event} {i f : Nat}
    {t : FileTask} (ht : t.ReadsOpened fs h i) (htouch : Touches f fs fs') (hne : t.file? ≠ some f) :
    t.ReadsOpened fs' (x :: h) i := by
  cases t with
  | readToEnd n file text =>
    obtain ⟨z, hz, y, hy, hopened⟩ := ht
    refine ⟨z, htouch.inodes _ _ ?_ hz, y, List.mem_cons_of_mem _ hy, hopened⟩
    rintro rfl
    exact hne rfl
  | read n result =>
    cases result with
    | ok text =>
      obtain ⟨mode, y, hy, hopened⟩ := ht
      exact ⟨mode, y, List.mem_cons_of_mem _ hy, hopened⟩
    | error error => trivial
  | _ => trivial

/-- In every state of a run, a reader that has returned read what its file held when it was opened, whatever
    was renamed over the name since. -/
theorem reads_opened {fs₀ : FileSystem} (hstart : Settled fs₀) {h : FileRun} {p : FilePool}
    (hpath : Path sys (Pool.idle fs₀) h p) : ∀ (i : Nat) (t : FileTask), p.tasks[i]? = some t →
      t.ReadsOpened p.shared h i := by
  have hnone : ∀ {fs : FileSystem} {i : Nat} {t : FileTask}, (Pool.idle fs : FilePool).tasks[i]? ≠ some t := by
    intro fs i t ht
    rw [Pool.idle, Std.ExtTreeMap.getElem?_empty] at ht
    cases ht
  induction hpath with
  | start => exact fun i t ht => absurd ht hnone
  | @step h p p' e hpath hs ih =>
    intro j u hu
    have hintact := intact_complete hstart hpath
    cases e with
    | powerLoss loss =>
      obtain rfl := Option.some.inj hs
      exact absurd hu hnone
    | move m =>
      rcases move_cases hs with ⟨i, t, rfl, he, -, rfl⟩ | ⟨i, c, t, fs', t', rfl, ht, -, hact, rfl⟩
      · rw [Pool.tasks_put] at hu
        split at hu
        · obtain rfl := Option.some.inj hu
          cases t with
          | createUniqueTemp call tries => trivial
          | openRead path => trivial
          | _ => cases he
        · have hlt : u.file? ≠ some p.shared.inodes.length := fun hfile =>
            Nat.lt_irrefl _ ((hintact.relies j u hu).file_lt hfile)
          exact (ih j u hu).frame touches_refl hlt
      · obtain ⟨f, htouch, hf⟩ := hintact.touches ht hact
        rw [Pool.tasks_put] at hu
        split at hu
        · rename_i hij
          subst hij
          obtain rfl := Option.some.inj hu
          have hbefore := ih i t ht
          have hrel := hintact.relies i t ht
          -- the reader opens, goes on, or has read all
          cases hact with
          | @opened n file hlookup =>
            obtain ⟨x, hx, -⟩ := hintact.relies_act ht (.opened hlookup)
            refine ⟨x, hx, _, List.mem_cons_self, ⟨c, rfl⟩, ht, ?_⟩
            rw [Fs.image, hlookup, Fs.imageAt_some, hx]
            rfl
          | transferred =>
            obtain ⟨x, hx, y, hy, hopened⟩ := hbefore
            exact ⟨x, hx, y, List.mem_cons_of_mem _ hy, hopened⟩
          | readAll hrest =>
            obtain ⟨x, hx, y, hy, hopened⟩ := hbefore
            obtain ⟨x', hx', -, htext⟩ := hrel
            obtain rfl : x = x' := Option.some.inj (hx.symm.trans hx')
            rw [hx] at hrest
            refine ⟨x.mode, y, List.mem_cons_of_mem _ hy, ?_⟩
            rw [eq_of_isPrefix_of_drop htext hrest]
            exact hopened
          | _ => trivial
        · rename_i hij
          exact (ih j u hu).frame htouch (hintact.frame ht hij hu hf)

/-- **An atomic register**: the file shows what was published last; a call that has returned `Ok` has
    published exactly once and one that has returned an error never; and what a reader got is what the file
    showed at one instant of its reading. -/
theorem atomic_register {fs₀ : FileSystem} (hstart : Settled fs₀) {h : FileRun} {p : FilePool}
    (hpath : Path sys (Pool.idle fs₀) h p) (hpowered : Powered h) :
    (∀ n : PathBuf, n.isHidden = false → p.shared.image n = lastPublished fs₀ n (log publishes h)) ∧
      (∀ (i : Nat) call, p.tasks[i]? = some (FileTask.returned call (.ok ())) →
        (log publishes h).filter (fun x => x.1 = i) = [(i, call)]) ∧
      (∀ (i : Nat) call error, p.tasks[i]? = some (FileTask.returned call (.error error)) →
        (log publishes h).filter (fun x => x.1 = i) = []) ∧
      ∀ (i : Nat) n text, p.tasks[i]? = some (FileTask.read n (.ok text)) →
        ∃ mode, ∃ y ∈ h, Opened i n ⟨text, mode⟩ y := by
  have hfilter := fun i => (log_publishes_filter hpath hpowered i).2
  refine ⟨fun n hn => image_eq_lastPublished hstart hpath hn hpowered, fun i call ht => ?_,
    fun i call error ht => ?_, fun i n text ht => ?_⟩
  · exact hfilter i _ ht (fun h => (by cases h))
  · exact hfilter i _ ht (fun h => (by cases h))
  · exact reads_opened hstart hpath i _ ht

/-- The register statement in a run of one write: the call returns, the file shows its bytes, and it is the
    one publication. -/
theorem atomic_register_config : ∃ h p, Path sys (Pool.idle emptyDirectory) h p ∧
    p.tasks[0]? = some (FileTask.returned configWrite (.ok ())) ∧
    p.shared.image configToml = lastPublished emptyDirectory configToml (log publishes h) ∧
    (log publishes h).filter (fun x => x.1 = 0) = [(0, configWrite)] := by
  have hrun : (sys.trace (Pool.idle emptyDirectory) writeThenRead).any (fun r =>
      r.2.tasks[0]? == some (FileTask.returned configWrite (.ok ())) && r.1.all fun x => x.2.isMove) = true := by decide
  obtain ⟨h, p, hpath, hend⟩ := Sys.path_of_trace_any _ hrun
  rw [Bool.and_eq_true, List.all_eq_true] at hend
  have hreturned := eq_of_beq hend.1
  have hregister := atomic_register settled_emptyDirectory hpath hend.2
  exact ⟨h, p, hpath, hreturned, hregister.1 configToml (by decide), hregister.2.1 0 configWrite hreturned⟩

/-! ## What survives power loss -/

/-- The step flushes the directory of `n`. -/
def FlushesDirOf (n : PathBuf) (x : FilePool × Event) : Prop :=
  ∃ i k call, x.2 = .move (.act i (.succeeds k)) ∧ x.1.tasks[i]? = some (FileTask.syncParent call) ∧
    call.path.parent = n.parent

/-- The step leaves `n` to show what it does. -/
def LeavesUnpublished (n : PathBuf) (x : FilePool × Event) : Prop := ∀ y ∈ publishes x, y.2.path ≠ n

/-- `n` has one binding only, which survives power loss. -/
def OnDisk (fs : FileSystem) (n : PathBuf) : Prop := (fs.entries n).before = []

/-- A rename over another name does not undo what is on disk. -/
theorem OnDisk.bind_other {fs : FileSystem} {n m : PathBuf} {o : Option Nat} (h : OnDisk fs n) (hne : n ≠ m) :
    OnDisk (fs.bind m o) n := by
  simp only [OnDisk, Fs.bind, if_neg hne]
  exact h

/-- The flush of its directory puts a name on disk. -/
theorem onDisk_flushDir {fs : FileSystem} {n : PathBuf} {inDir : PathBuf → Bool} (h : inDir n = true) :
    OnDisk (fs.flushDir inDir) n := by
  simp only [OnDisk, Fs.flushDir, h, if_true]

/-- The flush of any directory keeps what is on disk there. -/
theorem OnDisk.flushDir {fs : FileSystem} {n : PathBuf} (h : OnDisk fs n) (inDir : PathBuf → Bool) :
    OnDisk (fs.flushDir inDir) n := by
  simp only [OnDisk, Fs.flushDir]
  split
  · rfl
  · exact h

/-- A name that is on disk shows the same image after a power loss. -/
theorem OnDisk.image_powerLoss {A : PathBuf → Option Image → Prop} {p : FilePool} {n : PathBuf}
    (h : OnDisk p.shared n) (hintact : Intact A p) (hn : n.isHidden = false) (loss : Loss PathBuf) :
    (p.shared.powerLoss loss).image n = p.shared.image n :=
  image_powerLoss_of_settled h (hintact.whole n hn _ (p.shared.lookup_mem_possible n)).2 loss

/-- An act that does not publish `n` leaves its one binding. -/
theorem OnDisk.act {A : PathBuf → Option Image → Prop} {p : FilePool} {i : Nat} {c : Outcome} {t t' : FileTask}
    {fs' : FileSystem} {n : PathBuf} (h : OnDisk p.shared n) (hintact : Intact A p) (hn : n.isHidden = false)
    (ht : p.tasks[i]? = some t) (hact : t.act c p.shared = some (fs', t')) (hacts : Acts p.shared t fs' t')
    (hleaves : LeavesUnpublished n (p, .move (.act i c))) : OnDisk fs' n := by
  have hrel := hintact.relies i t ht
  cases hacts with
  | @created call tries fs' temp hidden _ hcreate =>
    obtain ⟨-, -, rfl⟩ := Fs.createNew_eq_some hcreate
    refine OnDisk.bind_other (show OnDisk _ n from h) ?_
    rintro rfl
    rw [hidden] at hn
    cases hn
  | @published call temp fs' hrename =>
    obtain ⟨x, hx, -⟩ := hrel
    have hpath : call.path ≠ n := by
      refine hleaves (i, call) ?_
      rw [publishes_of_publish ht hact]
      exact List.mem_cons_self
    obtain ⟨f, -, rfl⟩ := Fs.rename_eq_some (fun heq => hx.tmp_ne hx.visible heq.symm) hrename
    exact (h.bind_other (Ne.symm hpath)).bind_other (hx.tmp_ne hn)
  | parentSynced => exact h.flushDir _
  | removed =>
    obtain ⟨x, hx⟩ := hrel
    exact h.bind_other (hx.tmp_ne hn)
  | _ => exact h

/-- While `n` is not published it keeps its one binding and shows what it did, also across power loss. -/
theorem onDisk_of_path {A : PathBuf → Option Image → Prop} {p₀ p : FilePool} {n : PathBuf} {h : FileRun}
    (h0 : Intact A p₀) (hn : n.isHidden = false) (hdisk : OnDisk p₀.shared n) (hpath : Path sys p₀ h p) :
    (∀ x ∈ h, Allows A x.2) → (∀ x ∈ h, LeavesUnpublished n x) →
      OnDisk p.shared n ∧ p.shared.image n = p₀.shared.image n := by
  induction hpath with
  | start => exact fun _ _ => ⟨hdisk, rfl⟩
  | @step h p p' e hpath hs ih =>
    intro hA hleaves
    have hA' := fun x hx => hA x (List.mem_cons_of_mem _ hx)
    obtain ⟨hold, himage⟩ := ih hA' fun x hx => hleaves x (List.mem_cons_of_mem _ hx)
    have hintact := intact_of_path h0 hpath hA'
    have hleave := hleaves _ List.mem_cons_self
    cases e with
    | powerLoss loss =>
      obtain rfl := Option.some.inj hs
      exact ⟨rfl, (hold.image_powerLoss hintact hn loss).trans himage⟩
    | move m =>
      rcases move_cases hs with ⟨i, t, rfl, -, -, rfl⟩ | ⟨i, c, t, fs', t', rfl, ht, hact, hacts, rfl⟩
      · exact ⟨hold, himage⟩
      · refine ⟨hold.act hintact hn ht hact hacts hleave, ?_⟩
        rw [Pool.shared_put]
        rcases publish_or_not hacts with ⟨call, temp, rfl, rfl, hrename⟩ | ⟨hnot, -⟩
        · have hpath : call.path ≠ n := by
            refine hleave (i, call) ?_
            rw [publishes_of_publish ht hact]
            exact List.mem_cons_self
          rw [image_of_rename hintact ht hrename hn, if_neg hpath, himage]
        · rw [image_of_not_publish hintact ht hacts hnot hn, himage]

/-- **Durability**: what a file shows when its directory is flushed it shows until it is published again,
    across any number of power losses. -/
theorem durable {fs₀ : FileSystem} (hstart : Settled fs₀) {newer older : FileRun} {x : FilePool × Event}
    {p : FilePool} (hpath : Path sys (Pool.idle fs₀) (newer ++ x :: older) p) {n : PathBuf}
    (hn : n.isHidden = false) (hflush : FlushesDirOf n x) (hleaves : ∀ y ∈ newer, LeavesUnpublished n y) :
    p.shared.image n = x.1.shared.image n ∧
      ∀ loss, (p.shared.powerLoss loss).image n = x.1.shared.image n := by
  have hallows := allows_complete fs₀ (newer ++ x :: older)
  obtain ⟨m, e⟩ := x
  obtain ⟨m', hold, hs, hnew⟩ := hpath.cut
  obtain ⟨i, k, call, rfl, ht, hparent⟩ := hflush
  have hintact : Intact (Complete fs₀ (newer ++ (m, .move (.act i (.succeeds k))) :: older)) m :=
    intact_of_path (intact_start hstart _) hold fun y hy =>
      hallows y (List.mem_append_right _ (List.mem_cons_of_mem _ hy))
  -- the step itself: the directory is flushed
  have hm' : m' = m.put (m.shared.flushDir fun d => d.parent == call.path.parent) i
      (some (.returned call (.ok ()))) := by
    obtain ⟨t, r, ht', hr, rfl⟩ := step_act hs
    obtain rfl := Option.some.inj (ht.symm.trans ht')
    cases hr
    rfl
  have hdisk : OnDisk m'.shared n := by
    rw [hm', Pool.shared_put]
    exact onDisk_flushDir (by rw [hparent]; exact beq_self_eq_true _)
  have himage : m'.shared.image n = m.shared.image n := by
    rw [hm', Pool.shared_put, Fs.image, Fs.lookup_flushDir]
    rfl
  have hallowed : Allows (Complete fs₀ (newer ++ (m, .move (.act i (.succeeds k))) :: older))
      (.move (.act i (.succeeds k))) := trivial
  have hintact' : Intact _ m' := hintact.step hallowed hs
  have hA := fun y hy => hallows y (List.mem_append_left _ hy)
  obtain ⟨hstill, hsame⟩ := onDisk_of_path hintact' hn hdisk hnew hA hleaves
  have hend := intact_of_path hintact' hnew hA
  exact ⟨hsame.trans himage, fun loss => (hstill.image_powerLoss hend hn loss).trans (hsame.trans himage)⟩

/-- A run of one write in which the directory flush returns, and every power loss behind it. -/
theorem durable_config : ∃ h x p, Path sys (Pool.idle emptyDirectory) (x :: h) p ∧
    ∀ loss, (p.shared.powerLoss loss).image configToml = x.1.shared.image configToml := by
  have hrun : (sys.run (Pool.idle emptyDirectory)
      ([.move (.spawn 0 (.createUniqueTemp configWrite 8))] ++ acts 0 [5, 1, 9, 0, 0, 0])).any (fun p =>
        p.tasks[0]? == some (FileTask.syncParent configWrite)) = true := by decide
  obtain ⟨h, p, hpath, hend⟩ := Sys.path_of_run_any _ hrun
  have ht := eq_of_beq hend
  -- the flush of the directory succeeds
  have hs : sys.step p (.move (.act 0 (.succeeds 0))) =
      some (p.put (p.shared.flushDir fun d => d.parent == configToml.parent) 0
        (some (.returned configWrite (.ok ())))) := by
    simp only [sys, Program.sys, ht]
    rfl
  have hall : Path sys (Pool.idle emptyDirectory) ([] ++ (p, .move (.act 0 (.succeeds 0))) :: h) _ := .step hpath hs
  exact ⟨h, _, _, hall, (durable settled_emptyDirectory hall (by decide) ⟨0, 0, configWrite, rfl, ht, rfl⟩
    fun y hy => absurd hy List.not_mem_nil).2⟩

/-! ## No temporary file is left -/

/-- The process is not killed in this step, no power is lost, and no removal fails. -/
def tidy : FilePool × Event → Bool
  | (_, .powerLoss _) => false
  | (_, .move (.spawn _ _)) => true
  | (p, .move (.act i c)) =>
    match p.tasks[i]?, c with
    | _, .killed => false
    | some (.removeTemp _ _ _), .fails _ => false
    | _, _ => true

/-- A task answers for the temporary file. -/
def Owned (p : FilePool) (n : PathBuf) : Prop :=
  ∃ (i : Nat) (t : FileTask) (temp : TempFile), p.tasks[i]? = some t ∧ t.temp? = some temp ∧ temp.tmp = n

/-- The creation of the temporary file ends killed only where the fault injected is the kill. -/
theorem eq_killed_of_tempRound {call : WriteAtomic} {tries : Nat} {c : Outcome} {fs fs' : FileSystem}
    (h : tempRound call tries c fs = (fs', .killed)) : c = .killed := by
  unfold tempRound at h
  split at h
  · cases h
  · cases h
  · dsimp only at h
    split at h
    · cases h
    · cases h
  · cases h
  · split at h
    · cases h
    · cases h
  · rfl

/-- The same for a whole step of a call. -/
theorem eq_killed_of_act {t : FileTask} {c : Outcome} {fs fs' : FileSystem}
    (h : t.act c fs = some (fs', .killed)) : c = .killed := by
  cases c with
  | killed => rfl
  | noRandom error =>
    cases t with
    | createUniqueTemp call tries => exact eq_killed_of_tempRound (Option.some.inj h)
    | _ => cases h
  | fails error =>
    cases t with
    | createUniqueTemp call tries => exact eq_killed_of_tempRound (Option.some.inj h)
    | _ => cases h
  | succeeds n =>
    cases t with
    | createUniqueTemp call tries => exact eq_killed_of_tempRound (Option.some.inj h)
    | writeAll call temp written =>
      simp only [FileTask.act] at h
      split at h
      · cases h
      · split at h
        · cases h
        · cases h
    | publish call temp =>
      simp only [FileTask.act] at h
      split at h
      · cases h
      · cases h
    | openRead path =>
      simp only [FileTask.act] at h
      split at h
      · cases h
      · cases h
    | readToEnd path file text =>
      simp only [FileTask.act] at h
      split at h
      · cases h
      · cases h
    | _ => cases h

/-- After an act of `i` the name has an owner as before, if `i` answers for it as before. -/
theorem owned_put_iff {p : FilePool} {fs' : FileSystem} {i : Nat} {t' : FileTask} {n : PathBuf}
    (h : ∀ temp : TempFile, temp.tmp = n →
      (t'.temp? = some temp ↔ (p.tasks[i]?.bind FileTask.temp?) = some temp)) :
    Owned (p.put fs' i (some t')) n ↔ Owned p n := by
  constructor
  · rintro ⟨j, u, temp, hu, htemp, htmp⟩
    rw [Pool.tasks_put] at hu
    split at hu
    · obtain rfl := Option.some.inj hu
      obtain ⟨t, ht, htemp⟩ := Option.bind_eq_some_iff.mp ((h temp htmp).mp htemp)
      exact ⟨i, t, temp, ht, htemp, htmp⟩
    · exact ⟨j, u, temp, hu, htemp, htmp⟩
  · rintro ⟨j, u, temp, hu, htemp, htmp⟩
    by_cases hij : i = j
    · subst hij
      have hnew := (h temp htmp).mpr (by rw [hu]; exact htemp)
      exact ⟨i, t', temp, by rw [Pool.tasks_put, if_pos rfl], hnew, htmp⟩
    · exact ⟨j, u, temp, by rw [Pool.tasks_put, if_neg hij, hu], htemp, htmp⟩

/-- An act that is tidy: the name is as before, with the same owner; or its task has created it; or its task
    has removed or renamed it. -/
theorem lookup_of_act {A : PathBuf → Option Image → Prop} {p : FilePool} {i : Nat} {c : Outcome} {t t' : FileTask}
    {fs' : FileSystem} {n : PathBuf} (hintact : Intact A p) (hn : n.isHidden = true) (ht : p.tasks[i]? = some t)
    (hact : t.act c p.shared = some (fs', t')) (hacts : Acts p.shared t fs' t')
    (htidy : tidy (p, .move (.act i c)) = true) :
    (fs'.lookup n = p.shared.lookup n ∧ ∀ temp, temp.tmp = n → (t'.temp? = some temp ↔ t.temp? = some temp)) ∨
      (p.shared.lookup n = none ∧ ∃ temp, t'.temp? = some temp ∧ temp.tmp = n) ∨
      (fs'.lookup n = none ∧ ∃ temp, t.temp? = some temp ∧ temp.tmp = n) := by
  have hrel := hintact.relies i t ht
  -- a temporary file of another name comes or goes
  have hother : ∀ {temp : TempFile}, temp.tmp ≠ n → ∀ temp', temp'.tmp = n → ¬ some temp = some temp' := by
    rintro temp hne temp' rfl h
    exact hne (congrArg TempFile.tmp (Option.some.inj h))
  have hnone : ∀ {temp : TempFile}, ¬ (none : Option TempFile) = some temp := fun h => (by cases h)
  cases hacts with
  | @created call tries fs' temp hidden _ hcreate =>
    obtain ⟨hfree, -, rfl⟩ := Fs.createNew_eq_some hcreate
    by_cases htmp : temp.tmp = n
    · exact Or.inr (Or.inl ⟨htmp ▸ hfree, temp, rfl, htmp⟩)
    · refine Or.inl ⟨?_, fun temp' h => iff_of_false (hother htmp temp' h) hnone⟩
      rw [Fs.lookup_bind, if_neg (Ne.symm htmp)]
      rfl
  | @published call temp fs' hrename =>
    obtain ⟨x, hx, -⟩ := hrel
    obtain ⟨f, -, rfl⟩ := Fs.rename_eq_some (fun heq => hx.tmp_ne hx.visible heq.symm) hrename
    by_cases htmp : temp.tmp = n
    · exact Or.inr (Or.inr ⟨by rw [Fs.lookup_bind, if_pos htmp.symm], temp, rfl, htmp⟩)
    · have hpath : n ≠ call.path := by
        rintro rfl
        rw [hx.visible] at hn
        cases hn
      refine Or.inl ⟨?_, fun temp' h => iff_of_false hnone (hother htmp temp' h)⟩
      rw [Fs.lookup_bind, if_neg (Ne.symm htmp), Fs.lookup_bind, if_neg hpath]
  | @removed call temp error =>
    by_cases htmp : temp.tmp = n
    · exact Or.inr (Or.inr ⟨by rw [Fs.remove, Fs.lookup_bind, if_pos htmp.symm], temp, rfl, htmp⟩)
    · refine Or.inl ⟨?_, fun temp' h => iff_of_false hnone (hother htmp temp' h)⟩
      rw [Fs.remove, Fs.lookup_bind, if_neg (Ne.symm htmp)]
  | @notRemoved call temp error =>
    simp only [tidy, ht] at htidy
    cases c with
    | killed => cases hact
    | noRandom error => cases hact
    | fails error => cases htidy
    | succeeds k =>
      -- the outcome says that it was removed
      have hremoved : p.shared.remove temp.tmp = p.shared := (Prod.mk.inj (Option.some.inj hact)).1
      by_cases htmp : temp.tmp = n
      · refine Or.inr (Or.inr ⟨?_, temp, rfl, htmp⟩)
        rw [← hremoved, Fs.remove, Fs.lookup_bind, if_pos htmp.symm]
      · exact Or.inl ⟨rfl, fun temp' h => iff_of_false hnone (hother htmp temp' h)⟩
  | died =>
    obtain rfl := eq_killed_of_act hact
    cases htidy
  | parentSynced => exact Or.inl ⟨Fs.lookup_flushDir _ _ _, fun temp _ => Iff.rfl⟩
  | _ => exact Or.inl ⟨rfl, fun temp _ => Iff.rfl⟩

/-- **No litter**: as long as every process lives, no power is lost and removals succeed, a hidden name that
    a call in progress answers for was free at the start, and any other is bound as it was at the start.  So
    once no call is in progress the directory has no names more than before but those published. -/
theorem no_litter {fs₀ : FileSystem} (hstart : Settled fs₀) {h : FileRun} {p : FilePool}
    (hpath : Path sys (Pool.idle fs₀) h p) {n : PathBuf} (hn : n.isHidden = true) :
    (∀ x ∈ h, tidy x = true) →
      (Owned p n → fs₀.lookup n = none) ∧ (¬ Owned p n → p.shared.lookup n = fs₀.lookup n) := by
  induction hpath with
  | start =>
    refine fun _ => ⟨fun ⟨i, t, temp, ht, _⟩ => ?_, fun _ => rfl⟩
    rw [Pool.idle, Std.ExtTreeMap.getElem?_empty] at ht
    cases ht
  | @step h p p' e hpath hs ih =>
    intro htidy
    obtain ⟨howned, hfree⟩ := ih fun x hx => htidy x (List.mem_cons_of_mem _ hx)
    have hintact := intact_complete hstart hpath
    have hstep := htidy _ List.mem_cons_self
    cases e with
    | powerLoss loss => cases hstep
    | move m =>
      rcases move_cases hs with ⟨i, t, rfl, he, hnew, rfl⟩ | ⟨i, c, t, fs', t', rfl, ht, hact, hacts, rfl⟩
      · have hsame : Owned (p.put p.shared i (some t)) n ↔ Owned p n := owned_put_iff fun temp _ => ?_
        · rw [hsame]
          exact ⟨howned, hfree⟩
        · rw [hnew]
          refine iff_of_false ?_ (fun h => (by cases h))
          cases t with
          | createUniqueTemp call tries => exact fun h => (by cases h)
          | openRead path => exact fun h => (by cases h)
          | _ => cases he
      · rw [Pool.shared_put]
        rcases lookup_of_act hintact hn ht hact hacts hstep with ⟨hsame, hkeeps⟩ | ⟨hunbound, temp, htemp, htmp⟩ |
          ⟨hgone, temp, htemp, htmp⟩
        · have howner : Owned (p.put fs' i (some t')) n ↔ Owned p n :=
            owned_put_iff fun temp htmp => by rw [ht]; exact hkeeps temp htmp
          rw [howner, hsame]
          exact ⟨howned, hfree⟩
        · -- created: the name was free, and so it was at the start
          have hown : Owned (p.put fs' i (some t')) n :=
            ⟨i, t', temp, by rw [Pool.tasks_put, if_pos rfl], htemp, htmp⟩
          refine ⟨fun _ => ?_, fun hnot => absurd hown hnot⟩
          by_cases hbefore : Owned p n
          · exact howned hbefore
          · exact (hfree hbefore).symm.trans hunbound
        · -- gone again: its task answered for it, so it was free at the start
          have hfirst := howned ⟨i, t, temp, ht, htemp, htmp⟩
          exact ⟨fun _ => hfirst, fun _ => hgone.trans hfirst.symm⟩

/-- A write that fails half way, and removes its file. -/
theorem no_litter_config : ∃ h p, Path sys (Pool.idle emptyDirectory) h p ∧
    p.tasks[0]? = some (FileTask.returned configWrite (.error noFileName)) ∧
    p.shared.lookup ⟨"tellm", some ".config.toml.tmp-7-00000000000000000000000000000005"⟩ = none := by
  have hrun : (sys.trace (Pool.idle emptyDirectory)
      ([.move (.spawn 0 (.createUniqueTemp configWrite 8))] ++ acts 0 [5, 1] ++
        [.move (.act 0 (.fails noFileName))] ++ acts 0 [0])).any (fun r =>
          r.2.tasks[0]? == some (FileTask.returned configWrite (.error noFileName)) && r.1.all tidy &&
            r.2.tasks.toList.all fun x => x.2.temp?.isNone) = true := by decide
  obtain ⟨h, p, hpath, hend⟩ := Sys.path_of_trace_any _ hrun
  rw [Bool.and_eq_true, Bool.and_eq_true, List.all_eq_true, List.all_eq_true] at hend
  refine ⟨h, p, hpath, eq_of_beq hend.1.1, ?_⟩
  refine (no_litter settled_emptyDirectory hpath (by decide) hend.1.2).2 ?_
  rintro ⟨i, t, temp, ht, htemp, -⟩
  have hnone := hend.2 (i, t) (Std.ExtTreeMap.mem_toList_iff_getElem?_eq_some.mpr ht)
  rw [htemp] at hnone
  cases hnone

end Atomic

end Tellm
