import Punaro.Fleet.Tree
import Punaro.Lib.Program

/-!
# The file system under a fleet configuration

The calls that applying a fleet configuration makes, and what they do.

* The live files, with the home directory and the projects, are one `Disk`. Paths on it
  are real: no directory on the way is a link.
* An apply root (`internal/fleetconfig/apply.go`) has four directories (`Slot`), each
  moved and removed as a whole, and the record `applied.json`.
* A call may fail. What it has done by then is left open (`Fault`): a write may have
  stopped early and `RemoveAll` may have left a part of a directory.
-/

namespace Punaro.Fleet

open Prog

/-- What `Lstat` tells of a file. A junction or reparse point is a link. -/
inductive Kind where
  | regular
  | dir
  | link
  | special
deriving DecidableEq

inductive Node where
  | file (body : Bytes)
  | dir
  | link (target : Path)
  | special

def Node.kind : Node → Kind
  | .file _ => .regular
  | .dir => .dir
  | .link _ => .link
  | .special => .special

/-- The live files. -/
abbrev Disk := Path → Option Node

/-! ## The apply root -/

/-- `ApplyState`, the contents of `applied.json`. -/
structure ApplyState where
  digest : String := ""
  prefixDigests : Table Rel String := .empty
  lastGoodDigest : String := ""
  reportGeneration : Int := 0
  projectPaths : Table String Path := .empty

/-- The directories of an apply root: `current`, `staging`, `last-good` and `last-good.next`. -/
inductive Slot where
  | current
  | staging
  | lastGood
  | nextGood
deriving DecidableEq

/-- What is at the place of a directory: a tree of files, or something that is no directory. -/
inductive Entry where
  | tree (files : Table Rel Bytes)
  | other

def Entry.kind : Entry → Kind
  | .tree _ => .dir
  | .other => .link

structure Root where
  slots : Slot → Option Entry
  /-- `applied.json`; `none` if it is missing or is not JSON. -/
  applied : Option ApplyState

/-- A root in which nothing has been applied. -/
def Root.fresh : Root := ⟨fun _ => none, none⟩

def Root.set (r : Root) (slot : Slot) (entry : Option Entry) : Root :=
  { r with slots := Function.update r.slots slot entry }

/-! ## Calls -/

/-- A call of the file system. `loadAddendums` is the walk of the addendum tree, `walkSlot` the walk of a directory
of the apply root, `readRegularFile` the read whose failure is taken for a missing file, `removeDropped` the removal
of a destination that is no longer published, for which a missing file is no error. -/
inductive Call where
  | loadAddendums (root : Path)
  | lstat (path : Path)
  | readlink (path : Path)
  | readFile (path : Path)
  | readRegularFile (path : Path)
  | mkdirAll (path : Path)
  | remove (path : Path)
  | create (path : Path)
  | write (path : Path) (body : Bytes)
  | close (path : Path)
  | rename (path path' : Path)
  | removeDropped (path : Path)
  | removeAll (path : Path)
  | mkdirRoot (root : Path)
  | lockReconcile (root : Path)
  | removeSlot (root : Path) (slot : Slot)
  | mkdirSlot (root : Path) (slot : Slot)
  | writeStaged (root : Path) (rel : Rel) (body : Bytes)
  | lstatSlot (root : Path) (slot : Slot)
  | renameSlot (root : Path) (slot slot' : Slot)
  | walkSlot (root : Path) (slot : Slot)
  | readState (root : Path)
  | writeState (root : Path) (state : ApplyState)

abbrev Call.Result : Call → Type
  | .loadAddendums _ => Table Rel Bytes
  | .lstat _ => Option Kind
  | .readlink _ => Path
  | .readFile _ => Bytes
  | .readRegularFile _ => Option Bytes
  | .lstatSlot .. => Option Kind
  | .walkSlot .. => Table Rel Bytes
  | .readState _ => ApplyState
  | _ => Unit

abbrev Call.Reply (c : Call) : Type := Answer Err c.Result

abbrev Program (α : Type) : Type := Prog Call Call.Reply Err α

/-- A call whose outcome is looked at. -/
abbrev Call.tried (c : Call) : Program c.Reply := perform c

/-- A call whose error ends the program. -/
def Call.orElse (wrap : Err → Err) (c : Call) : Program c.Result := do
  let answer ← perform c
  result wrap answer

/-- A call whose error ends the program with the given text. -/
def Call.orFail (c : Call) (text : String) : Program c.Result := c.orElse fun _ => .message text

/-- A call whose error ends the program, wrapped. -/
def Call.orWrap (c : Call) (context : String) : Program c.Result := c.orElse (.wrapped context)

/-- A call whose error is returned as it is. -/
def Call.orReturn (c : Call) : Program c.Result := c.orElse id

/-- A call whose error is not looked at. -/
def Call.ignored (c : Call) : Program Unit := do
  let _ ← perform c
  return ()

def failWith {α : Type} (text : String) : Program α := .fail (.message text)

/-! ## What they do -/

/-- The machine: its live files, the apply roots and the addendum trees. -/
structure World where
  disk : Disk
  roots : Path → Root
  addendums : Path → List AddendumEntry

def World.setDisk (w : World) (path : Path) (node : Option Node) : World :=
  { w with disk := Function.update w.disk path node }

def World.setRoot (w : World) (root : Path) (r : Root) : World :=
  { w with roots := Function.update w.roots root r }

/-- Directories at `path` and all its ancestors. -/
def Disk.mkdirAll (d : Disk) (path : Path) : Disk :=
  fun q => if q.isPrefixOf path && (d q).isNone then some .dir else d q

/-- The disk without the entries below `path` for which `gone` holds. -/
def Disk.removeAll (d : Disk) (path : Path) (gone : Path → Bool) : Disk :=
  fun q => if path.isPrefixOf q && gone q then none else d q

/-- Whether a file and a directory would have to share a path. -/
def clashes (files : Table Rel Bytes) (rel : Rel) : Bool :=
  files.rows.any fun row => row.1 ≠ rel && (row.1.isPrefixOf rel || rel.isPrefixOf row.1)

/-- A call that does not fail for a reason of its own. -/
def World.perform (w : World) : (c : Call) → Except Err (World × c.Result)
  | .loadAddendums root =>
    match loadAddendums (if root = [] then [] else w.addendums root) with
    | .ok files => .ok (w, files)
    | .error e => .error e
  | .lstat path => .ok (w, (w.disk path).map Node.kind)
  | .readlink path =>
    match w.disk path with
    | some (.link target) => .ok (w, target)
    | _ => .error (.message "not a link")
  | .readFile path =>
    match w.disk path with
    | some (.file body) => .ok (w, body)
    | _ => .error (.message "not a file")
  | .readRegularFile path =>
    match w.disk path with
    | some (.file body) => .ok (w, some body)
    | _ => .ok (w, none)
  | .mkdirAll path =>
    if path.inits.all fun dir => ((w.disk dir).map Node.kind).all (· == .dir) then
      .ok ({ w with disk := w.disk.mkdirAll path }, ())
    else .error (.message "not a directory")
  | .remove path =>
    match w.disk path with
    | none => .error (.message "file does not exist")
    | some .dir => .error (.message "is a directory")
    | some _ => .ok (w.setDisk path none, ())
  | .create path =>
    match w.disk path with
    | none => .ok (w.setDisk path (some (.file [])), ())
    | some _ => .error (.message "file exists")
  | .write path body =>
    match w.disk path with
    | some (.file _) => .ok (w.setDisk path (some (.file body)), ())
    | _ => .error (.message "not a file")
  | .close _ => .ok (w, ())
  | .rename path path' =>
    match w.disk path, w.disk path' with
    | none, _ => .error (.message "file does not exist")
    | some _, some .dir => .error (.message "file exists")
    | some node, _ => .ok ((w.setDisk path none).setDisk path' (some node), ())
  | .removeDropped path =>
    match w.disk path with
    | some .dir => .error (.message "is a directory")
    | _ => .ok (w.setDisk path none, ())
  | .removeAll path => .ok ({ w with disk := w.disk.removeAll path fun _ => true }, ())
  | .mkdirRoot _ => .ok (w, ())
  | .lockReconcile _ => .ok (w, ())
  | .removeSlot root slot => .ok (w.setRoot root ((w.roots root).set slot none), ())
  | .mkdirSlot root slot =>
    match (w.roots root).slots slot with
    | none => .ok (w.setRoot root ((w.roots root).set slot (some (.tree .empty))), ())
    | some (.tree _) => .ok (w, ())
    | some .other => .error (.message "not a directory")
  | .writeStaged root rel body =>
    match (w.roots root).slots .staging with
    | some (.tree files) =>
      if clashes files rel then .error (.message "is a directory")
      else .ok (w.setRoot root ((w.roots root).set .staging (some (.tree (files.put rel body)))), ())
    | _ => .error (.message "not a directory")
  | .lstatSlot root slot => .ok (w, ((w.roots root).slots slot).map Entry.kind)
  | .renameSlot root slot slot' =>
    match (w.roots root).slots slot, (w.roots root).slots slot' with
    | none, _ => .error (.message "file does not exist")
    | some _, some _ => .error (.message "file exists")
    | some entry, none => .ok (w.setRoot root (((w.roots root).set slot none).set slot' (some entry)), ())
  | .walkSlot root slot =>
    match (w.roots root).slots slot with
    | some (.tree files) => .ok (w, files)
    | _ => .error (.message "not a directory")
  | .readState root =>
    match (w.roots root).applied with
    | some state => .ok (w, state)
    | none => .error (.message "file does not exist")
  | .writeState root state => .ok (w.setRoot root { w.roots root with applied := some state }, ())

/-- What is left open about the answer to a call: whether it fails (and whether it has done anything by then), how
much a failing write has written and what a failing `RemoveAll` has removed. -/
structure Fault where
  failure : Option Bool := none
  written : Nat := 0
  removed : List String → Bool := fun _ => false

/-- What a failing call leaves behind if it has done something. -/
def World.broken (o : Fault) (w : World) : Call → World
  | .write path body =>
    match w.disk path with
    | some (.file _) => w.setDisk path (some (.file (body.take o.written)))
    | _ => w
  | .removeAll path => { w with disk := w.disk.removeAll path o.removed }
  | .removeSlot root slot =>
    match (w.roots root).slots slot with
    | some (.tree files) =>
      w.setRoot root ((w.roots root).set slot (some (.tree (files.deleteWhere fun rel _ => o.removed rel))))
    | _ => w
  | .writeStaged root rel body =>
    match (w.roots root).slots .staging with
    | some (.tree files) =>
      w.setRoot root ((w.roots root).set .staging (some (.tree (files.put rel (body.take o.written)))))
    | _ => w
  | .writeState root _ => w.setRoot root { w.roots root with applied := none }
  | c =>
    match w.perform c with
    | .ok (w', _) => w'
    | .error _ => w

def World.answer (o : Fault) (w : World) (c : Call) : World × c.Reply :=
  match o.failure with
  | none =>
    match w.perform c with
    | .ok (w', a) => (w', .ok a)
    | .error e => (w, .failed e false)
  | some false => (w, .failed (.message "input/output error") false)
  | some true => (w.broken o c, .failed (.message "input/output error") true)

/-- An answer without an error is that of a call that did what it does. -/
theorem World.answer_ok {o : Fault} {w : World} {c : Call} {a : c.Result} (h : (w.answer o c).2 = .ok a) :
    w.perform c = .ok ((w.answer o c).1, a) := by
  unfold answer at h ⊢
  split at h
  · split at h
    · rename_i w' b hperform
      cases h
      rw [hperform]
    · cases h
  · cases h
  · cases h

/-! ## What they leave alone -/

/-- The call may change what is at the path. -/
def Call.touches (c : Call) (path : Path) : Prop :=
  match c with
  | .mkdirAll p => path <+: p
  | .remove p => p = path
  | .create p => p = path
  | .write p _ => p = path
  | .rename p p' => p = path ∨ p' = path
  | .removeDropped p => p = path
  | .removeAll p => p <+: path
  | _ => False

instance (c : Call) (path : Path) : Decidable (c.touches path) := by
  cases c <;> unfold Call.touches <;> infer_instance

/-- The call may change a directory of the apply root. -/
def Call.touchesSlot (c : Call) (root : Path) (slot : Slot) : Prop :=
  match c with
  | .removeSlot r s => r = root ∧ s = slot
  | .mkdirSlot r s => r = root ∧ s = slot
  | .writeStaged r _ _ => r = root ∧ .staging = slot
  | .renameSlot r s s' => r = root ∧ (s = slot ∨ s' = slot)
  | _ => False

/-- The call may change the record of the apply root. -/
def Call.touchesRecord (c : Call) (root : Path) : Prop :=
  match c with
  | .writeState r _ => r = root
  | _ => False

section

variable {w w' : World} {o : Fault} {c : Call} {path root p : Path} {slot : Slot} {d : Disk}

@[simp] theorem World.setDisk_disk (w : World) (p : Path) (node : Option Node) :
    (w.setDisk p node).disk = Function.update w.disk p node := rfl

@[simp] theorem World.setDisk_roots (w : World) (p : Path) (node : Option Node) :
    (w.setDisk p node).roots = w.roots := rfl

@[simp] theorem World.setRoot_disk (w : World) (p : Path) (r : Root) : (w.setRoot p r).disk = w.disk := rfl

@[simp] theorem World.setRoot_roots (w : World) (p : Path) (r : Root) :
    (w.setRoot p r).roots = Function.update w.roots p r := rfl

theorem Disk.mkdirAll_of_some (h : d path ≠ none) : d.mkdirAll p path = d path := by
  unfold Disk.mkdirAll
  rw [if_neg]
  simp [Option.isNone_iff_eq_none, h]

theorem Disk.mkdirAll_of_not_prefix (h : ¬path <+: p) : d.mkdirAll p path = d path := by
  unfold Disk.mkdirAll
  rw [if_neg]
  simp [List.isPrefixOf_iff_prefix, h]

theorem Disk.removeAll_of_not_prefix {gone : Path → Bool} (h : ¬p <+: path) : d.removeAll p gone path = d path := by
  unfold Disk.removeAll
  rw [if_neg]
  simp [List.isPrefixOf_iff_prefix, h]

/-- Calls that only read. -/
def Call.reads : Call → Bool
  | .loadAddendums _ => true
  | .lstat _ => true
  | .readlink _ => true
  | .readFile _ => true
  | .readRegularFile _ => true
  | .close _ => true
  | .mkdirRoot _ => true
  | .lockReconcile _ => true
  | .lstatSlot .. => true
  | .walkSlot .. => true
  | .readState _ => true
  | _ => false

theorem World.perform_reads {a : c.Result} (h : c.reads) (hperform : w.perform c = .ok (w', a)) : w' = w := by
  cases c <;> first
    | exact absurd h Bool.false_ne_true
    | (simp only [World.perform] at hperform
       (try split at hperform) <;> cases hperform <;> rfl)

/-- The world after a call: it differs at most where the call touches it. -/
structure World.Frame (c : Call) (w w' : World) : Prop where
  disk : ∀ path, ¬c.touches path → w'.disk path = w.disk path
  slots : ∀ root slot, ¬c.touchesSlot root slot → (w'.roots root).slots slot = (w.roots root).slots slot
  applied : ∀ root, ¬c.touchesRecord root → (w'.roots root).applied = (w.roots root).applied
  addendums : w'.addendums = w.addendums

theorem World.Frame.refl : World.Frame c w w := ⟨fun _ _ => rfl, fun _ _ _ => rfl, fun _ _ => rfl, rfl⟩

theorem World.Frame.ofDisk (h : ∀ path, ¬c.touches path → d path = w.disk path) :
    World.Frame c w { w with disk := d } := ⟨h, fun _ _ _ => rfl, fun _ _ => rfl, rfl⟩

theorem World.Frame.setDisk {node : Option Node} (h : c.touches p) : World.Frame c w (w.setDisk p node) :=
  .ofDisk fun path hpath => Function.update_of_ne (fun heq : path = p => hpath (heq ▸ h)) ..

theorem World.Frame.setSlot {entry : Option Entry} (h : c.touchesSlot p slot) :
    World.Frame c w (w.setRoot p ((w.roots p).set slot entry)) := by
  refine ⟨fun _ _ => rfl, fun root' slot' hne => ?_, fun root' _ => ?_, rfl⟩
  · by_cases hroot : root' = p
    · subst hroot
      rw [World.setRoot_roots, Function.update_self]
      exact Function.update_of_ne (fun heq : slot' = slot => hne (heq ▸ h)) ..
    · rw [World.setRoot_roots, Function.update_of_ne hroot]
  · by_cases hroot : root' = p
    · subst hroot
      rw [World.setRoot_roots, Function.update_self]
      rfl
    · rw [World.setRoot_roots, Function.update_of_ne hroot]

theorem World.Frame.setApplied {applied : Option ApplyState} (h : c.touchesRecord p) :
    World.Frame c w (w.setRoot p { w.roots p with applied := applied }) := by
  refine ⟨fun _ _ => rfl, fun root' slot' _ => ?_, fun root' hne => ?_, rfl⟩
  · by_cases hroot : root' = p
    · subst hroot
      rw [World.setRoot_roots, Function.update_self]
    · rw [World.setRoot_roots, Function.update_of_ne hroot]
  · rw [World.setRoot_roots, Function.update_of_ne fun heq : root' = p => hne (heq ▸ h)]

theorem World.Frame.removeAll {gone : Path → Bool} :
    World.Frame (.removeAll p) w { w with disk := w.disk.removeAll p gone } :=
  .ofDisk fun _ hpath => Disk.removeAll_of_not_prefix hpath

/-- Both directories of a rename change. -/
theorem World.Frame.rename {s s' : Slot} {entry : Option Entry} :
    World.Frame (.renameSlot p s s') w (w.setRoot p (((w.roots p).set s none).set s' entry)) := by
  refine ⟨fun _ _ => rfl, fun root' slot' hne => ?_, fun root' _ => ?_, rfl⟩
  · by_cases hroot : root' = p
    · subst hroot
      simp only [Call.touchesSlot, true_and, not_or] at hne
      rw [World.setRoot_roots, Function.update_self]
      simp [Root.set, Function.update_of_ne (Ne.symm hne.1), Function.update_of_ne (Ne.symm hne.2)]
    · rw [World.setRoot_roots, Function.update_of_ne hroot]
  · by_cases hroot : root' = p
    · subst hroot
      rw [World.setRoot_roots, Function.update_self]
      rfl
    · rw [World.setRoot_roots, Function.update_of_ne hroot]

theorem World.perform_frame {a : c.Result} (hperform : w.perform c = .ok (w', a)) : World.Frame c w w' := by
  cases c with
  | mkdirAll p =>
    simp only [World.perform] at hperform
    split at hperform <;> cases hperform
    exact .ofDisk fun _ hpath => Disk.mkdirAll_of_not_prefix hpath
  | remove | create | write | removeDropped =>
    simp only [World.perform] at hperform
    split at hperform <;> cases hperform
    exact .setDisk rfl
  | rename =>
    simp only [World.perform] at hperform
    split at hperform <;> cases hperform
    refine .ofDisk fun path hpath => ?_
    simp only [Call.touches, not_or] at hpath
    simp [Function.update_of_ne (Ne.symm hpath.2), Function.update_of_ne (Ne.symm hpath.1)]
  | removeAll p =>
    cases hperform
    exact .removeAll
  | removeSlot =>
    cases hperform
    exact .setSlot ⟨rfl, rfl⟩
  | mkdirSlot =>
    simp only [World.perform] at hperform
    split at hperform <;> cases hperform
    · exact .setSlot ⟨rfl, rfl⟩
    · exact .refl
  | writeStaged =>
    simp only [World.perform] at hperform
    split at hperform
    · split at hperform <;> cases hperform
      exact .setSlot ⟨rfl, rfl⟩
    · cases hperform
  | renameSlot =>
    simp only [World.perform] at hperform
    split at hperform <;> cases hperform
    exact .rename
  | writeState =>
    cases hperform
    exact .setApplied rfl
  | _ =>
    rw [World.perform_reads rfl hperform]
    exact .refl

theorem World.broken_frame : World.Frame c w (w.broken o c) := by
  cases c with
  | write =>
    simp only [World.broken]
    split
    · exact .setDisk rfl
    · exact .refl
  | removeAll p => exact .removeAll
  | removeSlot | writeStaged =>
    simp only [World.broken]
    split
    · exact .setSlot ⟨rfl, rfl⟩
    · exact .refl
  | writeState => exact .setApplied rfl
  | _ =>
    simp only [World.broken]
    split
    · rename_i hperform
      exact World.perform_frame hperform
    · exact .refl

/-- Whatever the answer, what a call does not touch is as it was. -/
theorem World.answer_frame (o : Fault) (w : World) (c : Call) : World.Frame c w (w.answer o c).1 := by
  unfold World.answer
  split
  · split
    · rename_i hperform
      exact World.perform_frame hperform
    · exact .refl
  · exact .refl
  · exact World.broken_frame

/-- A call that only reads leaves the world as it is. -/
theorem World.answer_reads (h : c.reads) : (w.answer o c).1 = w := by
  have hbroken : w.broken o c = w := by
    cases c <;> first
      | exact absurd h Bool.false_ne_true
      | (simp only [World.broken]
         split
         · rename_i hperform
           exact World.perform_reads h hperform
         · rfl)
  unfold World.answer
  split
  · split
    · rename_i hperform
      exact World.perform_reads h hperform
    · rfl
  · rfl
  · exact hbroken

/-- A directory that was moved. -/
theorem World.perform_renameSlot {s s' : Slot} {a : Unit}
    (h : w.perform (.renameSlot root s s') = .ok (w', a)) :
    ∃ entry, (w.roots root).slots s = some entry ∧ (w.roots root).slots s' = none ∧
      w' = w.setRoot root (((w.roots root).set s none).set s' (some entry)) := by
  simp only [World.perform] at h
  split at h <;> cases h
  exact ⟨_, ‹_›, ‹_›, rfl⟩

/-- Calls that do all they do or nothing, even if they fail. -/
def Call.whole : Call → Bool
  | .write .. => false
  | .removeAll _ => false
  | .removeSlot .. => false
  | .writeStaged .. => false
  | .writeState .. => false
  | _ => true

theorem World.answer_whole (h : c.whole) : (w.answer o c).1 = w ∨ ∃ a, w.perform c = .ok ((w.answer o c).1, a) := by
  have hbroken : w.broken o c = w ∨ ∃ a, w.perform c = .ok (w.broken o c, a) := by
    have heq : w.broken o c = match w.perform c with
        | .ok (w', _) => w'
        | .error _ => w := by
      cases c <;> first | rfl | exact absurd h Bool.false_ne_true
    rw [heq]
    split
    · exact .inr ⟨_, ‹_›⟩
    · exact .inl rfl
  unfold World.answer
  split
  · split
    · exact .inr ⟨_, ‹_›⟩
    · exact .inl rfl
  · exact .inl rfl
  · exact hbroken

theorem World.perform_remove {a : Unit} (h : w.perform (.remove path) = .ok (w', a)) : w'.disk path = none := by
  simp only [World.perform] at h
  split at h
  · cases h
  · cases h
  · cases h
    simp

theorem World.answer_remove : (w.answer o (.remove path)).1.disk path = w.disk path ∨
    (w.answer o (.remove path)).1.disk path = none := by
  rcases World.answer_whole (w := w) (o := o) (c := .remove path) rfl with h | ⟨a, h⟩
  · exact .inl (by rw [h])
  · exact .inr (World.perform_remove h)

theorem World.answer_lstat {kind : Option Kind} (h : (w.answer o (.lstat path)).2 = .ok kind) :
    kind = (w.disk path).map Node.kind := by
  have hperform := World.answer_ok h
  simp only [World.perform, Except.ok.injEq, Prod.mk.injEq] at hperform
  exact hperform.2.symm

/-- The contents of a file; nothing else has any. -/
def contents : Option Node → Bytes
  | some (.file body) => body
  | _ => []

theorem World.answer_readRegularFile {found : Option Bytes} (h : (w.answer o (.readRegularFile path)).2 = .ok found) :
    found.getD [] = contents (w.disk path) ∧ ∀ body, found = some body ↔ w.disk path = some (.file body) := by
  have hperform := World.answer_ok h
  simp only [World.perform] at hperform
  split at hperform
  · rename_i hnode
    simp only [Except.ok.injEq, Prod.mk.injEq] at hperform
    rw [← hperform.2, hnode]
    simp [contents]
  · rename_i hnode
    simp only [Except.ok.injEq, Prod.mk.injEq] at hperform
    rw [← hperform.2]
    refine ⟨?_, fun body => ⟨nofun, fun h => absurd h (hnode body)⟩⟩
    unfold contents
    split
    · exact absurd ‹_› (hnode _)
    · rfl

theorem World.perform_readFile {body : Bytes} (h : w.perform (.readFile path) = .ok (w', body)) :
    w.disk path = some (.file body) := by
  simp only [World.perform] at h
  split at h
  · rename_i hnode
    simp only [Except.ok.injEq, Prod.mk.injEq] at h
    rw [hnode, h.2]
  · cases h

theorem World.perform_readState {state : ApplyState} (h : w.perform (.readState root) = .ok (w', state)) :
    w' = w ∧ (w.roots root).applied = some state := by
  refine ⟨World.perform_reads rfl h, ?_⟩
  simp only [World.perform] at h
  split at h
  · rename_i hstate
    simp only [Except.ok.injEq, Prod.mk.injEq] at h
    rw [hstate, h.2]
  · cases h

/-! ## Rules for calls -/

variable {A : Fault → World → Call → Prop} {I : World → Prop} {P : Call → Prop}
variable {wrap : Err → Err} {α : Type}

theorem Call.makes_orElse (h : P c) : (c.orElse wrap).Makes P :=
  (makes_perform h).bind fun _ => makes_result

theorem Call.makes_ignored (h : P c) : c.ignored.Makes P := (makes_perform h).bind fun _ => trivial

theorem Call.makes_orElse_bind {f : c.Result → Program α} (h : P c) (hf : ∀ a, (f a).Makes P) :
    (c.orElse wrap >>= f).Makes P := (Call.makes_orElse h).bind hf

theorem Call.makes_ignored_bind {f : Unit → Program α} (h : P c) (hf : (f ()).Makes P) :
    (c.ignored >>= f).Makes P := (Call.makes_ignored h).bind fun _ => hf

theorem makes_failWith {text : String} : (failWith text : Program α).Makes P := trivial

/-- A call that ends the program if it fails: after an answer without an error the call did what it does. -/
theorem Call.ensures_orElse {Q : Except Err c.Result → World → Prop} (inv : ∀ o, A o w c → I (w.answer o c).1)
    (ok : ∀ w' a, w.perform c = .ok (w', a) → I w' → Q (.ok a) w')
    (failed : ∀ o e, A o w c → I (w.answer o c).1 → Q (.error e) (w.answer o c).1) :
    (c.orElse wrap).Ensures World.answer A I Q w := by
  intro o ho
  refine ⟨inv o ho, ?_⟩
  cases hanswer : (w.answer o c).2 with
  | ok a => exact ok _ a (World.answer_ok hanswer) (inv o ho)
  | failed => exact failed o _ ho (inv o ho)

theorem Call.ensures_ignored {Q : Except Err Unit → World → Prop}
    (h : ∀ o, A o w c → I (w.answer o c).1 ∧ Q (.ok ()) (w.answer o c).1) :
    c.ignored.Ensures World.answer A I Q w := h

end

end Punaro.Fleet
