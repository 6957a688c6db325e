import Punaro.Proof.Footprints
import Punaro.Proof.Published
import Punaro.Proof.Swap

/-!
# The snapshot of an apply root

`ApplyLive` compares the digest of what it has staged with the one in `applied.json`, and
publishes only if they differ. So the record has to say what is in `current`: then an
`ApplyLive` that succeeds leaves exactly what it has staged there, and the record still
says so.
-/

namespace Punaro.Fleet

open Prog Search

/-! ## What a digest binds -/

/-- Files with clean paths and without zero bytes. -/
def Plain (files : Table Rel Bytes) : Prop := ∀ rel body, files.find? rel = some body → Clean rel ∧ 0 ∉ body

variable {sha256 : Bytes → String} {files files' staged : Table Rel Bytes} {rel rel' : Rel} {root : Path}
  {w w' : World} {request : ApplyLiveRequest}
variable {r : Root}

theorem mem_text {c : Char} (h : c ∈ (Rel.text rel).toList) : c = '/' ∨ ∃ part ∈ rel, c ∈ part.toList := by
  unfold Rel.text at h
  rw [String.toList_intercalate] at h
  induction rel with
  | nil => simp at h
  | cons part rel ih =>
    cases rel with
    | nil => exact .inr ⟨part, by simp, by simpa using h⟩
    | cons next rel =>
      rw [List.map_cons, List.map_cons, List.intercalate_cons_cons, List.mem_append, List.mem_append] at h
      rcases h with (h | h) | h
      · exact .inr ⟨part, by simp, h⟩
      · exact .inl (by simpa using h)
      · rcases ih h with h | ⟨found, hfound, hc⟩
        · exact .inl h
        · exact .inr ⟨found, List.mem_cons_of_mem _ hfound, hc⟩

theorem Clean.char (h : Clean rel) {c : Char} (hc : c ∈ (Rel.text rel).toList) : 0 < c.toNat ∧ c.toNat ≤ 127 := by
  rcases mem_text hc with rfl | ⟨part, hpart, hc⟩
  · decide
  · exact ⟨(h.2 part hpart c hc).1, (h.2 part hpart c hc).2.1⟩

theorem Clean.zero_notMem (h : Clean rel) : 0 ∉ ascii (Rel.text rel) := by
  intro hmem
  obtain ⟨c, hc, hzero⟩ := List.mem_map.1 hmem
  have := h.char hc
  have := congrArg UInt8.toNat hzero
  simp [UInt8.toNat_ofNat'] at this
  omega

/-- The bytes of a path determine it. -/
theorem Clean.text_inj (h : Clean rel) (h' : Clean rel') (heq : ascii (Rel.text rel) = ascii (Rel.text rel')) :
    rel = rel' := by
  have hnat : ∀ {rel : Rel}, Clean rel →
      (ascii (Rel.text rel)).map UInt8.toNat = (Rel.text rel).toList.map Char.toNat := by
    intro rel h
    unfold ascii
    rw [List.map_map]
    refine List.map_congr_left fun c hc => ?_
    have := (h.char hc).2
    simp [UInt8.toNat_ofNat']
    omega
  have htext : (Rel.text rel).toList = (Rel.text rel').toList := by
    have hmap := congrArg (List.map UInt8.toNat) heq
    rw [hnat h, hnat h'] at hmap
    exact List.map_injective_iff.2 (fun _ _ heq => Char.toNat_inj.1 heq) hmap
  have hslash : ∀ {rel : Rel}, Clean rel → ∀ chars ∈ rel.map String.toList, '/' ∉ chars := by
    rintro rel h chars hchars hmem
    obtain ⟨part, hpart, rfl⟩ := List.mem_map.1 hchars
    exact (h.2 part hpart _ hmem).2.2 rfl
  unfold Rel.text at htext
  rw [String.toList_intercalate, String.toList_intercalate] at htext
  have hmap := intercalate_inj (hslash h) (hslash h') (by simpa using h.1) (by simpa using h'.1) htext
  exact List.map_injective_iff.2 (fun _ _ heq => String.toList_inj.1 heq) hmap

theorem pairs_inj {α β : Type} {f g : α → β × β} :
    ∀ {l l' : List α}, l.flatMap (fun a => [(f a).1, (f a).2]) = l'.flatMap (fun a => [(g a).1, (g a).2]) →
      l.map f = l'.map g
  | [], [], _ => rfl
  | [], _ :: _, h => by simp at h
  | _ :: _, [], h => by simp at h
  | a :: l, a' :: l', h => by
    simp only [List.flatMap_cons, List.cons_append, List.nil_append, List.cons.injEq] at h
    rw [List.map_cons, List.map_cons, Prod.ext h.1 h.2.1, pairs_inj h.2.2]

/-- A path and its contents, as they go into a digest. -/
def piece (files : Table Rel Bytes) (rel : Rel) : Bytes × Bytes := (ascii (Rel.text rel), (files.find? rel).getD [])

theorem snapshotText_eq : snapshotText files =
    ((sortedKeys files).flatMap fun rel => [(piece files rel).1, (piece files rel).2]).flatMap (· ++ [0]) := by
  simp [snapshotText, piece, List.flatMap_assoc]

theorem mem_sortedKeys : rel ∈ sortedKeys files ↔ ∃ body, files.find? rel = some body := by
  unfold sortedKeys
  rw [List.mem_insertionSort]
  simp [Table.find?_eq_some_iff_mem]

theorem Plain.pieces (h : Plain files) :
    ∀ text ∈ (sortedKeys files).flatMap fun rel => [(piece files rel).1, (piece files rel).2], 0 ∉ text := by
  intro text htext
  obtain ⟨rel, hrel, hmem⟩ := List.mem_flatMap.1 htext
  obtain ⟨body, hbody⟩ := mem_sortedKeys.1 hrel
  have hplain := h rel body hbody
  rcases List.mem_cons.1 hmem with rfl | hmem
  · exact hplain.1.zero_notMem
  · rw [List.mem_singleton] at hmem
    simpa [hmem, piece, hbody] using hplain.2

theorem find?_of_pieces (h : Plain files) (h' : Plain files')
    (hpieces : (sortedKeys files).map (piece files) = (sortedKeys files').map (piece files')) {body : Bytes}
    (hbody : files.find? rel = some body) : files'.find? rel = some body := by
  have hmem : piece files rel ∈ (sortedKeys files').map (piece files') :=
    hpieces ▸ List.mem_map_of_mem (mem_sortedKeys.2 ⟨body, hbody⟩)
  obtain ⟨rel', hrel', hpiece⟩ := List.mem_map.1 hmem
  obtain ⟨body', hbody'⟩ := mem_sortedKeys.1 hrel'
  simp only [piece, hbody, hbody', Option.getD_some, Prod.mk.injEq] at hpiece
  obtain rfl := (h' rel' body' hbody').1.text_inj (h rel body hbody).1 hpiece.1
  rw [hbody', hpiece.2]

/-- Plain file sets with one text are the same. -/
theorem snapshotText_inj (h : Plain files) (h' : Plain files') (heq : snapshotText files = snapshotText files') :
    SameFiles files files' := by
  rw [snapshotText_eq, snapshotText_eq] at heq
  have hpieces := pairs_inj (flatMap_ended_inj h.pieces h'.pieces heq)
  intro rel
  refine Option.ext fun body => ?_
  exact ⟨find?_of_pieces h h' hpieces, find?_of_pieces h' h hpieces.symm⟩

theorem zero_mem_snapshotText (h : files.rows ≠ []) : 0 ∈ snapshotText files := by
  obtain ⟨row, rows, hrows⟩ := List.exists_cons_of_ne_nil h
  have hmem : row.1 ∈ sortedKeys files :=
    mem_sortedKeys.2 ⟨row.2, Table.find?_eq_some_iff_mem.2 (by rw [hrows]; simp)⟩
  exact List.mem_flatMap.2 ⟨row.1, hmem, by simp⟩

theorem destSnapshotDigest_inj (hsha : Function.Injective sha256) (h : Plain files) (h' : Plain files')
    (hne : files'.rows ≠ []) (heq : destSnapshotDigest sha256 files = destSnapshotDigest sha256 files') :
    SameFiles files files' := by
  have htext := hsha heq
  rw [if_neg (List.ne_nil_of_mem (zero_mem_snapshotText hne))] at htext
  split at htext
  · -- the text that stands for the empty set has no zero byte
    have hzero : 0 ∈ ascii "fleet-config-dest" := htext ▸ zero_mem_snapshotText hne
    exact absurd hzero (by decide)
  · exact snapshotText_inj h h' htext

/-! ## The record -/

/-- The files are in `current`, and the record has their digest. -/
def Recorded (sha256 : Bytes → String) (files : Table Rel Bytes) (r : Root) : Prop :=
  Holds (· = files) (r.slots .current) ∧ ∃ state, r.applied = some state ∧ state.digest = destSnapshotDigest sha256 files

/-- If there is a record, it has the digest of the files in `current`. -/
def Agrees (sha256 : Bytes → String) (r : Root) : Prop :=
  ∀ state, r.applied = some state → ∃ files, Plain files ∧ Recorded sha256 files r

theorem Recorded.agrees (h : Recorded sha256 files r) (hplain : Plain files) : Agrees sha256 r :=
  fun _ _ => ⟨files, hplain, h⟩

/-- A record with the digest of some files is that of a root that has these files. -/
theorem Agrees.recorded {state : ApplyState} (h : Agrees sha256 r) (hsha : Function.Injective sha256)
    (hplain : Plain files) (hne : files.rows ≠ []) (hstate : r.applied = some state)
    (hdigest : state.digest = destSnapshotDigest sha256 files) : Recorded sha256 files r := by
  obtain ⟨files', hplain', ⟨entry, hentry, stored, _, rfl, rfl, hstored⟩, state', hstate', hdigest'⟩ := h state hstate
  cases hstate.symm.trans hstate'
  have hsame := destSnapshotDigest_inj hsha hplain' hplain hne (hdigest'.symm.trans hdigest)
  refine ⟨⟨_, hentry, stored, files, rfl, rfl, fun rel => ?_⟩, state, hstate, hdigest⟩
  rw [hstored rel, hsame rel]

theorem publishTree_recorded {digest : String} (h : SwapOK (everywhere fun _ => True) (w.roots root)) :
    (publishTree sha256 root files digest).Ensures World.answer removesWhole (fun _ => True)
      (fun r w => r = .ok () → Holds (· = files) ((w.roots root).slots .current) ∧
        ∃ state, (w.roots root).applied = some state ∧ state.digest = digest) w := by
  have hwritten : (publishTree sha256 root files digest).Ensures World.answer removesWhole (fun _ => True)
      (fun r w => ∀ u, r = .ok u → ∃ state, (w.roots root).applied = some state ∧ state.digest = digest) w := by
    unfold publishTree
    split
    · rintro _ ⟨⟩
    refine ensures_last fun _ _ => ensures_last fun _ _ => ensures_last fun _ _ => ensures_last fun _ _ =>
      ensures_last fun _ _ => ?_
    refine Call.ensures_orElse (fun _ _ => trivial) (fun w₁ a hperform _ => ?_) fun _ _ _ _ => nofun
    cases hperform
    exact fun _ _ => by simp
  refine (((publishTree_ensures h (fun _ => id) fun _ _ => trivial).weaken fun _ _ => trivial).and hwritten).mono ?_
  rintro r w₁ ⟨⟨-, hswapped⟩, hstate⟩ hr
  obtain ⟨hafter, hcurrent⟩ := hswapped hr
  exact ⟨hafter.holds nofun (fun _ => id) hcurrent, hstate () hr⟩

theorem sameDestSnapshot_ensures {digest : String} :
    (sameDestSnapshot root digest).Ensures World.answer removesWhole (fun _ => True)
      (fun r w' => w'.roots root = w.roots root ∧ (r = .ok true →
        ∃ state, (w.roots root).applied = some state ∧ state.digest = digest)) w := by
  have hsame : (sameDestSnapshot root digest).Ensures World.answer removesWhole (fun _ => True)
      (fun r _ => r = .ok true → ∃ state, (w.roots root).applied = some state ∧ state.digest = digest) w := by
    intro o _
    refine ⟨trivial, ?_⟩
    cases hanswer : (w.answer o (.readState root)).2 with
    | ok state =>
      intro hr
      simp only [Except.ok.injEq, decide_eq_true_eq, Bool.and_eq_true] at hr
      exact ⟨state, (World.perform_readState (World.answer_ok hanswer)).2, hr.2⟩
    | failed => exact nofun
  exact (local_ensures (sameDestSnapshot_reads.mono fun _ => Call.local_of_reads) root).and hsame

theorem persistDestProjectPaths_recorded {present : Table String Path} (h : Recorded sha256 files (w.roots root)) :
    (persistDestProjectPaths root present).Ensures World.answer removesWhole (fun _ => True)
      (fun r w => r = .ok () → Recorded sha256 files (w.roots root)) w := by
  obtain ⟨hholds, state, hstate, hdigest⟩ := h
  unfold persistDestProjectPaths
  rw [ensures_bind]
  refine Call.ensures_orElse (fun _ _ => trivial) (fun w₁ state' hread _ => ?_) fun _ _ _ _ => nofun
  obtain ⟨rfl, hstate'⟩ := World.perform_readState hread
  cases hstate.symm.trans hstate'
  refine Call.ensures_orElse (fun _ _ => trivial) (fun w₂ a hwrite _ _ => ?_) fun _ _ _ _ => nofun
  cases hwrite
  exact ⟨by simpa using hholds, by simpa using hdigest⟩

theorem publishStaged_recorded :
    (publishStaged sha256 request staged).Ensures World.answer removesWhole (fun _ => True)
      (fun r w => r = .ok () → Recorded sha256 staged (w.roots request.root)) w := by
  refine ensures_last (Q := fun _ w => Recorded sha256 staged (w.roots request.root)) (fun recorded w₁ => ?_)
    |>.mono fun r w h hr => h () hr
  refine ensures_last fun outgoing w₂ => ensures_last fun _ w₃ => ?_
  exact (publishTree_recorded fun _ _ _ _ => trivial).mono fun r w h u hr => h hr

/-- **After `ApplyLive` has written the destinations**, what it has staged becomes current and is recorded. -/
theorem settle_recorded (hsha : Function.Injective sha256) (hplain : Plain staged) (hne : staged.rows ≠ [])
    (htrue : ∀ state, (w.roots request.root).applied = some state →
      state.digest = destSnapshotDigest sha256 staged → Agrees sha256 (w.roots request.root)) :
    (settle sha256 request staged).Ensures World.answer removesWhole (fun _ => True)
      (fun r w => r = .ok () → Recorded sha256 staged (w.roots request.root)) w := by
  have hreads : ∀ {α : Type} {q : Program α}, Reads q → q.Makes Call.Local :=
    fun hq => hq.mono fun _ => Call.local_of_reads
  unfold settle
  rw [ensures_bind]
  refine (local_ensures (hreads (Call.makes_orElse rfl)) request.root).mono ?_
  rintro (e | u) w₁ h₁
  · exact nofun
  dsimp only
  rw [ensures_bind]
  refine (local_ensures (hreads loadDestProjectPaths_reads) request.root).mono ?_
  rintro (e | previous) w₂ h₂
  · exact nofun
  dsimp only
  rw [ensures_bind]
  refine (local_ensures pruneMovedProjectDests_local request.root).mono ?_
  rintro (e | u) w₃ h₃
  · exact nofun
  dsimp only
  rw [ensures_bind]
  refine sameDestSnapshot_ensures.mono ?_
  rintro (e | same) w₄ ⟨h₄, hsame⟩
  · exact nofun
  dsimp only
  have hroot : w₃.roots request.root = w.roots request.root := h₃.trans (h₂.trans h₁)
  split
  · rw [ensures_bind]
    refine publishStaged_recorded.mono ?_
    rintro (e | u) w₅ h₅
    · exact nofun
    · exact persistDestProjectPaths_recorded (h₅ rfl)
  · -- the record is that of the staged files, so they are current already
    rename_i hskip
    obtain ⟨state, hstate, hdigest⟩ := hsame (by simpa using hskip)
    rw [hroot] at h₄ hstate
    refine persistDestProjectPaths_recorded ?_
    rw [h₄]
    exact (htrue state hstate hdigest).recorded hsha hplain hne hstate hdigest

/-! ## Whole runs -/

/-- `ApplyLive` that succeeds, having staged at least one file and no zero bytes. -/
theorem stageLive_recorded (hsha : Function.Injective sha256) (hroot : request.root ≠ []) :
    (stageLive sha256 request).Ensures World.answer removesWhole (fun _ => True)
      (fun r w' => ∃ out, r = .ok out ∧ (out.2 = none → out.1.staged.rows ≠ [] →
        (out.1.staged.All fun _ body => 0 ∉ body) →
        (∀ state, (w.roots request.root).applied = some state →
          state.digest = destSnapshotDigest sha256 out.1.staged → Agrees sha256 (w.roots request.root)) →
        Plain out.1.staged ∧ Recorded sha256 out.1.staged (w'.roots request.root))) w := by
  refine stageLive_ensures trivial (by simp) fun hvalid addendums w₁ _ => ?_
  have hclean : ∀ rel ∈ destApplyOrder request.published, Clean rel := fun rel hrel =>
    (mem_destApplyOrder.1 hrel).elim (published_clean hvalid rel)
  refine ((local_ensures (applyDests_local _) request.root).and (applyDests_results _ hclean .start).ensures).mono ?_
  rintro (e | ⟨applied, _ | e⟩) w₁ ⟨hroots, hstaged⟩
  · trivial
  · simp only [AfterLoop]
    split
    · rename_i hpublish
      by_cases hok : (applied.staged.All fun _ body => 0 ∉ body) ∧
          ∀ state, (w.roots request.root).applied = some state →
            state.digest = destSnapshotDigest sha256 applied.staged → Agrees sha256 (w.roots request.root)
      · have hplain : Plain applied.staged := fun rel body hbody =>
          ⟨(hstaged _ rfl).1 rel body hbody, hok.1 rel body hbody⟩
        refine (settle_recorded hsha hplain hpublish.2 (by rw [hroots]; exact hok.2)).mono ?_
        rintro (e | u) w₂ hrecorded
        · simp
        · exact fun _ _ _ _ => ⟨hplain, hrecorded rfl⟩
      · refine results_true.ensures.mono ?_
        rintro (e | u) w₂ -
        · simp
        · exact fun _ _ hzero htrue => absurd ⟨hzero, htrue⟩ hok
    · rename_i hskip
      exact fun _ hne => absurd ⟨hroot, hne⟩ hskip
  · rintro ⟨⟩

/-- A call of either operation. -/
inductive LiveOp where
  | apply (request : ApplyLiveRequest)
  | rollback (request : ApplyLiveRequest)

def LiveOp.applyRoot : LiveOp → Path
  | .apply request => request.root
  | .rollback request => request.root

def LiveOp.program (sha256 : Bytes → String) : LiveOp → Program (Option (Applied × Option Err))
  | .apply request => do
    let applied ← stageLive sha256 request
    return some applied
  | .rollback request => do
    rollbackLive request
    return none

/-- What `ApplyLive` has staged, if the call was one and has succeeded. -/
def stagedBy : Option (Except Err (Option (Applied × Option Err))) → Option (Table Rel Bytes)
  | some (.ok (some (applied, none))) => some applied.staged
  | _ => none

/-- The condition on one call: `RemoveAll` removes whole directories, and a successful `ApplyLive` has an apply root,
stages at least one file and no zero bytes, and does not find the digest of its files in a record that is not that of
`current`. -/
def PublishesFresh (sha256 : Bytes → String) (op : LiveOp) (os : List Fault) (w : World) : Prop :=
  (op.program sha256).Admits World.answer removesWhole os w ∧
    ∀ staged ∈ stagedBy ((op.program sha256).play World.answer os w).2,
      op.applyRoot ≠ [] ∧ staged.rows ≠ [] ∧ (staged.All fun _ body => 0 ∉ body) ∧
        (Agrees sha256 (w.roots op.applyRoot) ∨
          ((w.roots op.applyRoot).applied.map (·.digest)) ≠ some (destSnapshotDigest sha256 staged))

/-- What is required of one call: after a successful `ApplyLive`, what it has staged is current, and the record is
that of `current`. -/
def SnapshotExact (sha256 : Bytes → String) (op : LiveOp) (os : List Fault) (w : World) : Prop :=
  ∀ staged ∈ stagedBy ((op.program sha256).play World.answer os w).2,
    Holds (· = staged) ((((op.program sha256).play World.answer os w).1.roots op.applyRoot).slots .current) ∧
      Agrees sha256 (((op.program sha256).play World.answer os w).1.roots op.applyRoot)

theorem snapshotExact_of_publishesFresh (hsha : Function.Injective sha256) {op : LiveOp} {os : List Fault}
    (h : PublishesFresh sha256 op os w) : SnapshotExact sha256 op os w := by
  obtain ⟨hadmits, hfresh⟩ := h
  intro staged hstaged
  obtain ⟨hroot, hne, hzero, htrue⟩ := hfresh staged hstaged
  have htrue : ∀ state, (w.roots op.applyRoot).applied = some state →
      state.digest = destSnapshotDigest sha256 staged → Agrees sha256 (w.roots op.applyRoot) := by
    intro state hstate hdigest
    refine htrue.resolve_right (not_not_intro ?_)
    rw [hstate, ← hdigest]
    rfl
  have hplay : (op.program sha256).Ensures World.answer removesWhole (fun _ => True)
      (fun r w' => stagedBy (some r) = some staged →
        Plain staged ∧ Recorded sha256 staged (w'.roots op.applyRoot)) w := by
    cases op with
    | apply request =>
      unfold LiveOp.program
      rw [ensures_bind]
      refine (stageLive_recorded hsha hroot).mono ?_
      rintro _ w' ⟨⟨applied, _ | e⟩, rfl, hrecorded⟩ hr
      · cases hr
        exact hrecorded rfl hne hzero htrue
      · cases hr
    | rollback request =>
      unfold LiveOp.program
      rw [ensures_bind]
      refine results_true.ensures.mono ?_
      rintro (e | u) w' - ⟨⟩
  cases hr : ((op.program sha256).play World.answer os w).2 with
  | none =>
    rw [hr] at hstaged
    cases hstaged
  | some r =>
    rw [hr] at hstaged
    obtain ⟨hplain, hrecorded⟩ := (hplay.play hadmits trivial).1 r hr hstaged
    exact ⟨hrecorded.1, hrecorded.agrees hplain⟩

/-! ## Going back to a snapshot -/

/-- A digest for tests: the bytes as characters. -/
def textDigest (body : Bytes) : String := String.ofList (body.map fun byte => Char.ofNat byte.toNat)

theorem textDigest_injective : Function.Injective textDigest := by
  have hchar : ∀ n : Fin 256, (Char.ofNat n).toNat = n := by decide +kernel
  have hbyte : Function.Injective fun byte : UInt8 => Char.ofNat byte.toNat := by
    intro byte byte' heq
    have hnat := congrArg Char.toNat heq
    exact UInt8.toNat_inj.1 ((hchar ⟨_, byte.toNat_lt⟩).symm.trans (hnat.trans (hchar ⟨_, byte'.toNat_lt⟩)))
  intro body body' heq
  exact List.map_injective_iff.2 hbyte (String.ofList_injective heq)

/-- The configuration with one AGENTS.md. -/
def agentsRequest (text : String) : ApplyLiveRequest := ⟨[⟨["AGENTS.md"], ascii text⟩], ["r"], ["h"], [], []⟩

/-- The answers to a call that runs to its end without a fault. -/
def steady : List Fault := List.replicate 100 {}

/-- Two configurations, then back to the first one. -/
def rolledBack : List (LiveOp × List Fault) :=
  [(.apply (agentsRequest "one"), steady), (.apply (agentsRequest "two"), steady),
    (.rollback (agentsRequest "two"), steady)]

/-- A successful `ApplyLive` stages files that are not the recorded ones. -/
def PublishesOthers (sha256 : Bytes → String) (op : LiveOp) (os : List Fault) (w : World) : Prop :=
  (op.program sha256).Admits World.answer removesWhole os w ∧
    ∀ staged ∈ stagedBy ((op.program sha256).play World.answer os w).2,
      op.applyRoot ≠ [] ∧ staged.rows ≠ [] ∧ (staged.All fun _ body => 0 ∉ body) ∧
        ((w.roots op.applyRoot).applied.map (·.digest)) ≠ some (destSnapshotDigest sha256 staged)

instance (sha256 : Bytes → String) (op : LiveOp) (os : List Fault) (w : World) :
    Decidable (PublishesOthers sha256 op os w) := inferInstanceAs (Decidable (_ ∧ _))

/-- The second configuration, applied once more after the rollback. -/
def afterRollback : World × Option (Except Err (Option (Applied × Option Err))) :=
  (LiveOp.program textDigest (.apply (agentsRequest "two"))).play World.answer steady
    (history World.answer (LiveOp.program textDigest) rolledBack emptyWorld)

/-- AGENTS.md in `current`. -/
def currentAgents (r : Root) : Option Bytes :=
  match r.slots .current with
  | some (.tree files) => files.find? ["AGENTS.md"]
  | _ => none

theorem not_holds_of_currentAgents_ne (h : currentAgents r ≠ files.find? ["AGENTS.md"]) :
    ¬Holds (· = files) (r.slots .current) := by
  rintro ⟨_, hentry, stored, _, rfl, rfl, hsame⟩
  refine h ?_
  rw [← hsame ["AGENTS.md"]]
  simp only [currentAgents, hentry]

end Punaro.Fleet
