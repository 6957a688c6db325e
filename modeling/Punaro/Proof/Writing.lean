import Punaro.Proof.Footprints

/-!
# Writing a destination

What is at a destination while `writeRegularDest` replaces it, whatever its calls are
answered: what was there before, nothing, or the new file. A destination that was written
has the new file, and its skill is marked.
-/

namespace Punaro.Fleet

open Prog

variable {A : Fault → World → Call → Prop} {w w' : World} {o : Fault} {c : Call} {path live dir p : Path} {rel : Rel}
  {body : Bytes}

theorem tmpOf_ne : tmpOf path ≠ path := by
  intro h
  rcases List.eq_nil_or_concat' path with rfl | ⟨dir, name, rfl⟩
  · cases h
  · simp [tmpOf] at h

theorem Call.not_touches_of_reads (h : c.reads) : ¬c.touches p := by
  cases c <;> first | exact absurd h Bool.false_ne_true | exact id

theorem Call.touches_of_writesTemp (hc : c.writesTemp path) (h : c.touches p) : p = tmpOf path := by
  cases c <;> first
    | exact h.symm.trans hc
    | exact absurd h (Call.not_touches_of_reads hc)

theorem Call.touches_of_writesDest (hc : c.writesDest path) (h : c.touches p) :
    p = path ∨ p = tmpOf path ∨ p <+: path.dropLast := by
  cases c with
  | mkdirAll p' => exact .inr (.inr (hc ▸ h))
  | remove p' => exact hc.imp h.symm.trans fun hc => .inl (h.symm.trans hc)
  | create p' => exact .inr (.inl (h.symm.trans hc))
  | write => exact .inr (.inl (h.symm.trans hc))
  | rename => exact h.elim (fun h => .inr (.inl (h.symm.trans hc.1))) fun h => .inl (h.symm.trans hc.2)
  | _ => exact absurd h (Call.not_touches_of_reads hc)

/-- What no call of a program touches. -/
theorem untouched_ensures {α : Type} {q : Program α} (hq : q.Makes fun c => ¬c.touches path) :
    q.Retains World.answer A (fun w' => w'.disk path = w.disk path) w :=
  hq.ensures (J := fun w' => w'.disk path = w.disk path)
    (fun o c w' _ hc h => ⟨((World.answer_frame o w' c).disk path hc).trans h,
      ((World.answer_frame o w' c).disk path hc).trans h⟩) rfl

theorem writeTemp_ensures :
    (writeTemp path body).Ensures World.answer A (fun w' => w'.disk path = w.disk path)
      (fun r w' => w'.disk path = w.disk path ∧ (r = .ok () → w'.disk (tmpOf path) = some (.file body))) w := by
  have hkeep : (writeTemp path body).Makes fun c => ¬c.touches path :=
    writeTemp_makes.mono fun c hc h => tmpOf_ne (Call.touches_of_writesTemp hc h).symm
  refine (untouched_ensures hkeep).and (J := fun _ => True) ?_
  unfold writeTemp
  rw [ensures_bind]
  refine Call.ensures_ignored fun o _ => ⟨trivial, ?_⟩
  dsimp only
  rw [ensures_bind]
  refine Call.ensures_orElse (fun _ _ => trivial) (fun w₁ _ _ _ => ?_) fun _ _ _ _ => nofun
  dsimp only
  rw [ensures_perform_bind]
  intro o _
  refine ⟨trivial, ?_⟩
  cases hanswer : (w₁.answer o (.write (tmpOf path) body)).2 with
  | failed => exact fun _ _ => ⟨trivial, fun _ _ => ⟨trivial, nofun⟩⟩
  | ok u =>
    have hwrite := World.answer_ok hanswer
    generalize (w₁.answer o (.write (tmpOf path) body)).1 = w₂ at hwrite ⊢
    have hbody : w₂.disk (tmpOf path) = some (.file body) := by
      simp only [World.perform] at hwrite
      split at hwrite <;> cases hwrite
      simp
    dsimp only
    rw [ensures_perform_bind]
    intro o _
    refine ⟨trivial, ?_⟩
    split
    · exact fun _ _ => ⟨trivial, nofun⟩
    · intro _
      rwa [World.answer_reads rfl]

/-- What may be at a destination while it is replaced. -/
def Replacing (old : Option Node) (body : Bytes) (node : Option Node) : Prop :=
  node = old ∨ node = none ∨ node = some (.file body)

theorem moveIntoPlace_ensures (htmp : w.disk (tmpOf path) = some (.file body)) :
    (moveIntoPlace path).Ensures World.answer A
      (fun w' => w'.disk path = w.disk path ∨ w'.disk path = some (.file body))
      (fun r w' => (w'.disk path = w.disk path ∨ w'.disk path = some (.file body)) ∧
        (r = .ok () → w'.disk path = some (.file body))) w := by
  have hrename : ∀ w' a, w.perform (.rename (tmpOf path) path) = .ok (w', a) → w'.disk path = some (.file body) := by
    intro w' a hperform
    simp only [World.perform, htmp] at hperform
    split at hperform <;> cases hperform
    simp_all
  unfold moveIntoPlace
  rw [ensures_perform_bind]
  intro o _
  have hafter : (w.answer o (.rename (tmpOf path) path)).1.disk path = w.disk path ∨
      (w.answer o (.rename (tmpOf path) path)).1.disk path = some (.file body) := by
    rcases World.answer_whole (w := w) (o := o) (c := .rename (tmpOf path) path) rfl with h | ⟨a, h⟩
    · exact .inl (by rw [h])
    · exact .inr (hrename _ _ h)
  refine ⟨hafter, ?_⟩
  cases hanswer : (w.answer o (.rename (tmpOf path) path)).2 with
  | failed =>
    intro o' _
    have hsame := (World.answer_frame o' (w.answer o (.rename (tmpOf path) path)).1 (.remove (tmpOf path))).disk path
      fun h => tmpOf_ne h
    rw [← hsame] at hafter
    exact ⟨hafter, hafter, by simp⟩
  | ok u =>
    dsimp only
    rw [ensures_perform_bind]
    intro o _
    rw [World.answer_reads rfl]
    refine ⟨hafter, ?_⟩
    split
    · exact ⟨hafter, fun _ => hrename _ _ (World.answer_ok hanswer)⟩
    · exact ⟨hafter, by simp⟩

theorem replaceDest_ensures {regular : Bool} :
    (replaceDest path body regular).Ensures World.answer A (fun w' => Replacing (w.disk path) body (w'.disk path))
      (fun r w' => Replacing (w.disk path) body (w'.disk path) ∧ (r = .ok () → w'.disk path = some (.file body))) w := by
  -- the sibling is complete when the destination is removed, and takes its place
  have hmove : ∀ w₂ : World, (w₂.disk path = w.disk path ∨ w₂.disk path = none) →
      w₂.disk (tmpOf path) = some (.file body) →
      (moveIntoPlace path).Ensures World.answer A (fun w' => Replacing (w.disk path) body (w'.disk path))
        (fun r w' => Replacing (w.disk path) body (w'.disk path) ∧ (r = .ok () → w'.disk path = some (.file body)))
        w₂ := by
    intro w₂ hpath htmp
    have hcases : ∀ w' : World, (w'.disk path = w₂.disk path ∨ w'.disk path = some (.file body)) →
        Replacing (w.disk path) body (w'.disk path) := by
      rintro w' (h | h)
      · rw [h]
        exact hpath.imp id .inl
      · exact .inr (.inr h)
    exact ((moveIntoPlace_ensures htmp).weaken hcases).mono fun r w' h => ⟨hcases w' h.1, h.2⟩
  unfold replaceDest
  rw [ensures_bind]
  refine (writeTemp_ensures.weaken fun w' h => .inl h).mono ?_
  rintro (e | u) w₁ ⟨h₁, htmp⟩
  · exact ⟨.inl h₁, nofun⟩
  dsimp only
  split
  · rw [ensures_bind]
    refine Call.ensures_ignored fun o _ => ?_
    have hremoved : (w₁.answer o (.remove path)).1.disk path = w.disk path ∨
        (w₁.answer o (.remove path)).1.disk path = none := h₁ ▸ World.answer_remove
    refine ⟨hremoved.imp id .inl, hmove _ hremoved ?_⟩
    rw [(World.answer_frame o w₁ (.remove path)).disk _ fun h : path = tmpOf path => tmpOf_ne h.symm]
    exact htmp rfl
  · exact hmove w₁ (.inl h₁) (htmp rfl)

theorem clearDest_ensures :
    (clearDest path).Retains World.answer A (fun w' => w'.disk path = w.disk path ∨ w'.disk path = none) w := by
  refine clearDest_makes.ensures (J := fun w' : World => w'.disk path = w.disk path ∨ w'.disk path = none) ?_ (.inl rfl)
  rintro o c w' - (hc | rfl) h
  · rw [World.answer_reads hc]
    exact ⟨h, h⟩
  · have hremoved : (w'.answer o (.remove path)).1.disk path = w.disk path ∨
        (w'.answer o (.remove path)).1.disk path = none := by
      have hanswer : (w'.answer o (.remove path)).1.disk path = w'.disk path ∨ _ := World.answer_remove
      rcases hanswer with h' | h'
      · rwa [h']
      · exact .inr h'
    exact ⟨hremoved, hremoved⟩

/-- **Writing a destination.** Whatever happens, what was there before, nothing or the new file is there. -/
theorem writeRegularDest_ensures (hpath : path ≠ []) :
    (writeRegularDest path body).Ensures World.answer A (fun w' => Replacing (w.disk path) body (w'.disk path))
      (fun r w' => Replacing (w.disk path) body (w'.disk path) ∧ (r = .ok () → w'.disk path = some (.file body))) w := by
  have hcleared : ∀ {node : Option Node}, node = w.disk path ∨ node = none → Replacing (w.disk path) body node :=
    fun h => h.imp id .inl
  unfold writeRegularDest
  rw [ensures_bind]
  refine (clearDest_ensures.weaken fun _ => hcleared).mono ?_
  rintro (e | regular) w₁ h₁
  · exact ⟨hcleared h₁, nofun⟩
  have hwait : ∀ w' : World, w'.disk path = w₁.disk path → Replacing (w.disk path) body (w'.disk path) :=
    fun w' h => hcleared (h ▸ h₁)
  have hreject : (rejectUnsafeDestAncestors path).Makes fun c => ¬c.touches path :=
    rejectUnsafeDestAncestors_reads.mono fun _ => Call.not_touches_of_reads
  dsimp only
  rw [ensures_bind]
  refine ((untouched_ensures hreject).weaken hwait).mono ?_
  rintro (e | u) w₂ h₂
  · exact ⟨hwait w₂ h₂, nofun⟩
  have hmkdir : ¬(Call.mkdirAll path.dropLast).touches path := by
    intro h
    have hlength := h.length_le
    have hpos := List.length_pos_of_ne_nil hpath
    rw [List.length_dropLast] at hlength
    omega
  have hframe : ∀ o, (w₂.answer o (.mkdirAll path.dropLast)).1.disk path = w₁.disk path :=
    fun o => ((World.answer_frame o w₂ _).disk path hmkdir).trans h₂
  dsimp only
  rw [ensures_bind]
  refine Call.ensures_orElse (fun o _ => hwait _ (hframe o)) (fun w₃ u hperform _ => ?_)
    fun o e _ h => ⟨h, nofun⟩
  have h₃ : w₃.disk path = w₁.disk path := ((World.perform_frame hperform).disk path hmkdir).trans h₂
  have hreplace : ∀ node, Replacing (w₃.disk path) body node → Replacing (w.disk path) body node := by
    rintro node (h | h | h)
    · exact hcleared (h ▸ h₃ ▸ h₁)
    · exact .inr (.inl h)
    · exact .inr (.inr h)
  exact (replaceDest_ensures.weaken fun _ => hreplace _).mono fun r w' h => ⟨hreplace _ h.1, h.2⟩

/-- **A destination is replaced whole**, however the calls are answered and wherever the run stops, and nothing
changes but it, its temporary file and the directories above it. -/
theorem writeRegularDest_whole (dir : Path) (name : String) (body : Bytes) (faults : List Fault) (w : World) :
    let path := dir ++ [name]
    let after := (writeRegularDest path body).play World.answer faults w
    Replacing (w.disk path) body (after.1.disk path) ∧
      (after.2 = some (.ok ()) → after.1.disk path = some (.file body)) ∧
      ∀ p, p ≠ path → p ≠ tmpOf path → ¬p <+: dir → after.1.disk p = w.disk p := by
  intro path after
  have h := @writeRegularDest_ensures (fun _ _ _ => True) w path body (by simp [path])
  refine ⟨(h.mono fun _ _ h => h.1).left admits_true (.inl rfl), fun hok => ?_, fun p hp htmp hdir => ?_⟩
  · exact ((h.play admits_true (.inl rfl)).1 _ hok).2 rfl
  · have hmakes : (writeRegularDest path body).Makes fun c => ¬c.touches p := by
      refine writeRegularDest_makes.mono fun c hc htouches => ?_
      rcases Call.touches_of_writesDest hc htouches with h | h | h
      · exact hp h
      · exact htmp h
      · exact hdir (by simpa [path] using h)
    exact (untouched_ensures hmakes).left admits_true rfl

/-! ## The marker of a skill -/

/-- The directory has a marker. -/
def Disk.managed (d : Disk) (dir : Path) : Prop := (d (dir ++ [managedDirMarker])).map Node.kind = some .regular

instance (d : Disk) (dir : Path) : Decidable (d.managed dir) := inferInstanceAs (Decidable (_ = _))

/-- A program that only reads leaves the world as it is. -/
theorem reads_ensures {α : Type} {q : Program α} (hq : Reads q) : q.Retains World.answer A (fun w' => w' = w) w :=
  hq.ensures (J := fun w' => w' = w)
    (fun _ _ _ _ hc h => ⟨(World.answer_reads hc).trans h, (World.answer_reads hc).trans h⟩) rfl

theorem isManagedDir_ensures :
    (isManagedDir dir).Ensures World.answer A (fun w' => w' = w)
      (fun r w' => w' = w ∧ (r = .ok true → w.disk.managed dir)) w := by
  refine (reads_ensures isManagedDir_reads).and (J := fun _ => True) ?_
  unfold isManagedDir
  rw [ensures_perform_bind]
  intro o _
  refine ⟨trivial, ?_⟩
  split
  · rename_i hanswer
    exact fun _ => (World.answer_lstat hanswer).symm
  · exact nofun

theorem markManagedSkillDir_ensures :
    (markManagedSkillDir dir).Ensures World.answer A (fun _ => True) (fun r w' => r = .ok () → w'.disk.managed dir)
      w := by
  unfold markManagedSkillDir
  rw [ensures_bind]
  refine ((reads_ensures rejectUnsafeDestAncestors_reads).weaken fun _ _ => trivial).mono ?_
  rintro (e | u) w₁ -
  · exact nofun
  dsimp only
  rw [ensures_bind]
  refine Call.ensures_orElse (fun _ _ => trivial) (fun w₂ _ _ _ => ?_) fun _ _ _ _ => nofun
  dsimp only
  rw [ensures_bind]
  refine (isManagedDir_ensures.weaken fun _ _ => trivial).mono ?_
  rintro (e | managed) w₃ ⟨rfl, hmanaged⟩
  · exact nofun
  dsimp only
  split
  · rename_i htrue
    exact fun _ => hmanaged (by rw [htrue])
  · refine ((writeRegularDest_ensures (by simp)).weaken fun _ _ => trivial).mono fun r w' h hr => ?_
    unfold Disk.managed
    rw [h.2 hr]
    rfl

theorem markSkill_ensures :
    (markSkill rel live).Ensures World.answer A (fun _ => True)
      (fun r w' => r = .ok () → ∀ dir, skillDirForRel rel live = some dir → w'.disk.managed dir) w := by
  unfold markSkill
  split
  · rename_i dir hdir
    refine markManagedSkillDir_ensures.mono fun r w' h hr dir' hdir' => ?_
    cases hdir.symm.trans hdir'
    exact h hr
  · rename_i hdir
    rintro _ dir hdir'
    cases hdir.symm.trans hdir'

/-! ## One destination -/

/-- What the live file may be read as: its contents, or nothing if reading it fails. -/
def ReadAs (A : Fault → World → Call → Prop) (w : World) (live : Path) (existing : Bytes) : Prop :=
  existing = contents (w.disk live) ∨ existing = [] ∧ ∃ o, A o w (.readRegularFile live) ∧ o.failure ≠ none

theorem readLive_ensures :
    (readLive live).Ensures World.answer A (fun w' => w' = w)
      (fun r w' => w' = w ∧ ∀ existing, r = .ok existing → ReadAs A w live existing) w := by
  refine (reads_ensures readLive_reads).and (J := fun _ => True) ?_
  unfold readLive
  rw [ensures_perform_bind]
  intro o ho
  refine ⟨trivial, ?_⟩
  cases hanswer : (w.answer o (.readRegularFile live)).2 with
  | ok found =>
    have hread := (World.answer_readRegularFile hanswer).1
    cases found with
    | some body => rintro _ ⟨⟩; exact .inl hread
    | none => rintro _ ⟨⟩; exact .inl hread
  | failed =>
    rintro _ ⟨⟩
    refine .inr ⟨rfl, o, ho, fun hnone => ?_⟩
    -- without a fault of its own this read has an answer
    simp only [World.answer, hnone, World.perform] at hanswer
    split at hanswer
    · cases hanswer
    · rename_i hperform
      split at hperform <;> cases hperform

variable {home : Path} {present : Table String Path} {published addendums : Table Rel Bytes} {applied : Applied}

/-- What is written to a destination, given what was read there. -/
def nextBody (published addendums : Table Rel Bytes) (rel : Rel) (existing : Bytes) : Bytes :=
  composeDest rel ((published.find? rel).getD []) published addendums existing

/-- What may be at a destination at any moment of its turn. -/
def Turn (A : Fault → World → Call → Prop) (published addendums : Table Rel Bytes) (rel : Rel) (live : Path)
    (w w' : World) : Prop :=
  ∃ existing, ReadAs A w live existing ∧
    Replacing (w.disk live) (nextBody published addendums rel existing) (w'.disk live)

theorem Turn.refl : Turn A published addendums rel live w w := ⟨_, .inl rfl, .inl rfl⟩

/-- A destination that was written: its file is there, and its skill is marked. -/
structure Written (A : Fault → World → Call → Prop) (published addendums : Table Rel Bytes) (rel : Rel) (live : Path)
    (w w' : World) (next : Bytes) : Prop where
  composed : ∃ existing, ReadAs A w live existing ∧ next = nextBody published addendums rel existing
  file : w'.disk live = some (.file next)
  marked : ∀ dir, skillDirForRel rel live = some dir → w'.disk.managed dir

/-- The marker of the skill is not in the way of the file. -/
def MarkerApart (rel : Rel) (live : Path) : Prop :=
  ∀ dir, skillDirForRel rel live = some dir → live ≠ tmpOf (dir ++ [managedDirMarker]) ∧
    live ≠ dir ++ [managedDirMarker] ∧ ¬live <+: dir

theorem liveDestPath_ne_nil (h : liveDestPath home present rel = some live) : live ≠ [] := by
  unfold liveDestPath at h
  split at h
  · split at h <;> cases h
    simp
  · split at h <;> cases h
    simp
  · split at h <;> cases h
    simp
  · split at h
    · cases h
      simp
    · cases h
      simp
    · split at h <;> cases h
      simp
    · cases h
  · cases h

theorem markSkill_untouched (h : MarkerApart rel live) : (markSkill rel live).Makes fun c => ¬c.touches live := by
  unfold markSkill
  split
  · rename_i dir hdir
    obtain ⟨htmp, hmarker, hpre⟩ := h dir hdir
    refine markManagedSkillDir_makes.mono fun c hc htouches => ?_
    rcases Call.touches_of_writesDest hc htouches with h | h | h
    · exact hmarker h
    · exact htmp h
    · exact hpre (by simpa using h)
  · trivial

/-- The two results a turn can have. -/
def TurnResult (A : Fault → World → Call → Prop) (published addendums : Table Rel Bytes) (rel : Rel) (live : Path)
    (w w' : World) (applied applied' : Applied) : Prop :=
  (applied' = { applied with result := { applied.result with collisions := applied.result.collisions ++ [rel] } } ∧
    w' = w) ∨
  ∃ next, applied' = ⟨applied.staged.put rel next, { applied.result with written := applied.result.written + 1 }⟩ ∧
    Written A published addendums rel live w w' next

/-- **The turn of one destination** in the loop of `ApplyLive`. -/
theorem applyDest_ensures (hlive : liveDestPath home present rel = some live) (hmarker : MarkerApart rel live) :
    (applyDest home present published addendums rel applied).Ensures World.answer A
      (Turn A published addendums rel live w)
      (fun r w' => Turn A published addendums rel live w w' ∧ ∀ applied', r = .ok applied' →
        TurnResult A published addendums rel live w w' applied applied') w := by
  unfold applyDest
  simp only [hlive]
  rw [ensures_bind]
  have hrefl : ∀ w' : World, w' = w → Turn A published addendums rel live w w' := fun w' h => h ▸ .refl
  refine ((reads_ensures destCollision_reads).weaken hrefl).mono ?_
  rintro (e | collision) w₁ rfl
  · exact ⟨.refl, by simp⟩
  dsimp only
  split
  · exact ⟨.refl, fun applied' h => by cases h; exact .inl ⟨rfl, rfl⟩⟩
  rw [ensures_bind]
  refine (readLive_ensures.weaken hrefl).mono ?_
  rintro (e | existing) w₁' ⟨rfl, hread⟩
  · exact ⟨.refl, by simp⟩
  dsimp only
  have hturn : ∀ {node : Option Node} {w' : World}, w'.disk live = node →
      Replacing (w₁'.disk live) (nextBody published addendums rel existing) node →
      Turn A published addendums rel live w₁' w' := fun heq h => ⟨existing, hread _ rfl, heq ▸ h⟩
  rw [ensures_bind]
  refine ((writeRegularDest_ensures (liveDestPath_ne_nil hlive)).weaken fun w' h => hturn rfl h).mono ?_
  rintro (e | u) w₂ ⟨h₂, hwritten⟩
  · exact ⟨hturn rfl h₂, by simp⟩
  dsimp only
  rw [ensures_bind]
  have hmark := (untouched_ensures (markSkill_untouched hmarker) (A := A) (w := w₂)).and
    (markSkill_ensures (A := A) (w := w₂))
  refine (hmark.weaken fun w' h => hturn h h₂).mono ?_
  rintro (e | u) w₃ ⟨h₃, hmarked⟩
  · exact ⟨hturn h₃ h₂, by simp⟩
  · refine ⟨hturn h₃ h₂, fun applied' h => ?_⟩
    cases h
    exact .inr ⟨_, rfl, ⟨existing, hread _ rfl, rfl⟩, h₃.trans (hwritten rfl), hmarked rfl⟩

end Punaro.Fleet
