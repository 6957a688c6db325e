import Mathlib.Data.List.Basic
import Punaro.Lib.Program

/-!
# Files and directories

The part of a file system a program works on, place by place. Every call is one
step: a file is created complete and a rename takes effect at once, so that a crash
lies between two calls.

The places are of any type. A `Volume` says which directories a place lies in, where
a place comes from when a directory around it has been renamed, and how long a body
is.
-/

namespace Files

open Punaro

/-- What is at a place. -/
inductive Node (B : Type) where
  | dir
  | file (body : B)
deriving DecidableEq

abbrev Disk (P B : Type) := P → Option (Node B)

/-- The errors a caller can tell apart. -/
inductive Error where
  | exist
  | notExist
  | other
deriving DecidableEq

/-- How the places of a disk lie. -/
structure Volume (P B : Type) where
  /-- The directories around a place, the innermost first, up to those that are always there. -/
  parents : P → List P
  /-- Where the contents of a place were before the first directory was renamed to the second. -/
  origin : P → P → P → P
  size : B → ℕ

/-- What `Lstat` tells. -/
inductive Info where
  | dir
  | file (size : ℕ)
deriving DecidableEq

inductive Call (P B : Type) where
  | lstat (p : P)
  | readFile (p : P)
  | mkdir (p : P)
  | mkdirAll (p : P)
  | create (p : P) (body : B)
  | rename (p p' : P)
  | remove (p : P)
  | removeAll (p : P)
  | sync (p : P)
deriving DecidableEq

abbrev Call.Result {P B : Type} : Call P B → Type
  | .lstat _ => Option Info
  | .readFile _ => B
  | _ => Unit

variable {P B : Type} [DecidableEq P] (V : Volume P B) (d : Disk P B)

/-- The place is a directory or lies in one, at any depth. -/
def Volume.within (p q : P) : Bool := p == q || (V.parents q).contains p

/-- The directory a place lies in is there. -/
def Disk.room (p : P) : Bool :=
  match V.parents p with
  | [] => true
  | parent :: _ => match d parent with
    | some .dir => true
    | _ => false

def Disk.info (p : P) : Option Info :=
  (d p).map fun
    | .dir => .dir
    | .file body => .file (V.size body)

/-- The disk with another entry at a place. -/
def Disk.set (p : P) (entry : Option (Node B)) : Disk P B := Function.update d p entry

def Disk.isFile (p : P) : Bool :=
  match d p with
  | some (.file _) => true
  | _ => false

/-- The disk after a directory was renamed to a place where nothing was. -/
def Disk.moved (p p' : P) : Disk P B :=
  fun q => if V.within p' q then d (V.origin p p' q) else if V.within p q then none else d q

/-- The disk without a place and everything below it. -/
def Disk.without (p : P) : Disk P B := fun q => if V.within p q then none else d q

/-- The disk with a directory and all those around it. -/
def Disk.withDirs (p : P) : Disk P B :=
  fun q => if V.within q p && (d q).isNone then some .dir else d q

def Disk.perform : (c : Call P B) → Except Error (Disk P B × c.Result)
  | .lstat p => .ok (d, d.info V p)
  | .readFile p =>
    match d p with
    | some (.file body) => .ok (d, body)
    | some .dir => .error .other
    | none => .error .notExist
  | .mkdir p =>
    if (d p).isSome then .error .exist
    else if d.room V p then .ok (d.set p (some .dir), ()) else .error .notExist
  | .mkdirAll p =>
    if (p :: V.parents p).any d.isFile then .error .other else .ok (d.withDirs V p, ())
  | .create p body =>
    if (d p).isSome then .error .exist
    else if d.room V p then .ok (d.set p (some (.file body)), ()) else .error .notExist
  | .rename p p' =>
    match d p with
    | none => .error .notExist
    | some (.file body) =>
      if d p' matches some .dir then .error .exist
      else if d.room V p' then .ok ((d.set p none).set p' (some (.file body)), ()) else .error .notExist
    | some .dir =>
      -- an empty directory would be replaced; here nothing may be there
      if (d p').isSome then .error .exist
      else if d.room V p' then .ok (d.moved V p p', ()) else .error .notExist
  | .remove p =>
    match d p with
    | none => .error .notExist
    | some .dir => .error .other
    | some (.file _) => .ok (d.set p none, ())
  | .removeAll p => .ok (d.without V p, ())
  | .sync _ => .ok (d, ())

/-- The step a call makes. A fault stops it before it has done anything. -/
def Volume.answer (fault : Bool) (d : Disk P B) (c : Call P B) : Disk P B × Except Error c.Result :=
  if fault then (d, .error .other)
  else
    match d.perform V c with
    | .ok (d', a) => (d', .ok a)
    | .error e => (d, .error e)

/-! ## What the calls do -/

variable {V} {d}

@[simp] theorem Disk.set_self : d.set p entry p = entry := Function.update_self ..

theorem Disk.set_of_ne (h : q ≠ p) : d.set p entry q = d q :=
  Function.update_of_ne h ..

theorem Disk.perform_rename_file {p' : P} {body : B} (h : d p = some (.file body)) (h' : d p' ≠ some .dir)
    (hroom : d.room V p' = true) :
    d.perform V (.rename p p') = .ok ((d.set p none).set p' (some (.file body)), ()) := by
  unfold Disk.perform
  dsimp only
  rw [h]
  dsimp only
  split
  · rename_i hdir
    exact absurd hdir h'
  · rw [if_neg (by decide), if_pos hroom]

/-! ## Programs over files -/

open Prog

abbrev Act (P B ε : Type) := Prog (Call P B) (fun c => Except Error c.Result) ε

variable {ε α : Type}

/-- A call whose error ends the program. -/
def orFail (c : Call P B) (e : ε) : Act P B ε c.Result := do
  match ← perform c with
  | .ok a => pure a
  | .error _ => .fail e

/-- The answers considered: every one, or those of calls that do not fail for a reason of their own. -/
def Allowed (faulty : Prop) : Bool → Disk P B → Call P B → Prop := fun fault _ _ => fault = true → faulty

/-- The program holds to this, with faults or without. -/
abbrev Holds (V : Volume P B) (faulty : Prop) (I : Disk P B → Prop) (p : Act P B ε α)
    (Q : Except ε α → Disk P B → Prop) (d : Disk P B) : Prop :=
  p.Ensures V.answer (Allowed faulty) I Q d

variable {faulty : Prop} {I : Disk P B → Prop}
variable {c : Call P B} {p q : P} {entry : Option (Node B)} {Q : Except ε c.Result → Disk P B → Prop}

theorem perform_holds {f : Except Error c.Result → Act P B ε α} {Q : Except ε α → Disk P B → Prop}
    (hfail : ∀ e, faulty ∨ d.perform V c = .error e → I d ∧ Holds V faulty I (f (.error e)) Q d)
    (hok : ∀ d' a, d.perform V c = .ok (d', a) → I d' ∧ Holds V faulty I (f (.ok a)) Q d') :
    Holds V faulty I (perform c >>= f) Q d := by
  refine ensures_perform_bind.2 fun fault hfault => ?_
  unfold Volume.answer
  cases fault with
  | true => exact hfail _ (.inl (hfault rfl))
  | false =>
    rw [if_neg (by decide)]
    cases hperform : d.perform V c with
    | ok r => exact hok r.1 r.2 hperform
    | error e => exact hfail e (.inr hperform)

theorem orFail_holds {e : ε} (hfail : (faulty ∨ ∃ e', d.perform V c = .error e') → I d ∧ Q (.error e) d)
    (hok : ∀ d' a, d.perform V c = .ok (d', a) → I d' ∧ Q (.ok a) d') : Holds V faulty I (orFail c e) Q d :=
  perform_holds (fun e' h => hfail (h.imp_right fun h => ⟨e', h⟩)) hok

/-- A call that succeeds unless there is a fault. -/
theorem step_holds {e : ε} {d' : Disk P B} {a : c.Result} (hperform : d.perform V c = .ok (d', a))
    (hfail : faulty → I d ∧ Q (.error e) d) (hok : I d' ∧ Q (.ok a) d') : Holds V faulty I (orFail c e) Q d := by
  refine orFail_holds ?_ ?_
  · rintro (hfault | ⟨e, he⟩)
    · exact hfail hfault
    · rw [hperform] at he
      cases he
  · intro d'' a' h
    rw [hperform] at h
    obtain ⟨rfl, rfl⟩ := Prod.mk.inj (Except.ok.inj h)
    exact hok

omit [DecidableEq P] in
theorem allowed_true : (Allowed True : Bool → Disk P B → Call P B → Prop) = fun _ _ _ => True := by
  funext fault d c
  simp [Allowed]

theorem admits_allowed {p : Act P B ε α} {os : List Bool} : p.Admits V.answer (Allowed True) os d := by
  rw [allowed_true]
  exact admits_true

theorem historyAdmits_allowed {M : Type} {main : M → Act P B ε α} (runs : List (M × List Bool)) :
    HistoryAdmits V.answer (Allowed True) main runs d := by
  rw [allowed_true]
  exact historyAdmits_true

end Files
