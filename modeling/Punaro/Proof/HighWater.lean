import Punaro.Operator.CatalogAcceptance

/-!
# The catalog high-water mark

The accepted state and a pending one that is not older make up the state that is in
effect (`effective`). Every step of a call keeps it or, in an acceptance, raises it to
the sequence that is accepted; so a call that stops anywhere has taken effect or has
not. A later call starts from the state in effect and succeeds if it does not go below
it.
-/

namespace Punaro.Operator

open Prog

variable {d : CatalogDisk} {s v embeddedMinimum : Int64} {required : Bool}
  {state accepted pending : Option AcceptedCatalogState} {directory : CatalogDirectory}
  {Q : Except CatalogFailure Unit → CatalogDisk → Prop} {request : CatalogRequest}
  {entry : Option (Files.Node Text)}

/-! ## The written state is read back -/

theorem integer_toInt (h : ¬s < 1) : ∃ n : ℕ, s.toInt = n ∧ n < 2 ^ 63 ∧ Json.integer s.toInt = Json.numeral n := by
  have hpos : 1 ≤ s.toInt := by
    rw [Int64.lt_iff_toInt_lt, show (1 : Int64).toInt = 1 by decide] at h
    omega
  have hlt := s.toInt_lt
  refine ⟨s.toInt.toNat, by omega, by omega, ?_⟩
  conv_lhs => rw [← Int.toNat_of_nonneg (show 0 ≤ s.toInt by omega)]
  rfl

theorem wellFormed_body (s : Int64) : Json.Value.WellFormed (.object
    [("version", .number (Json.integer (1 : Int64).toInt)), ("sequence", .number (Json.integer s.toInt))]) := by
  refine (Json.proper_object (by simp) ?_).wellFormed
  intro m hm
  simp only [List.mem_cons, List.not_mem_nil, or_false] at hm
  rcases hm with rfl | rfl
  · exact Json.proper_number (Json.validNumber_integer _)
  · exact Json.proper_number (Json.validNumber_integer _)

theorem decode_body (h : ¬s < 1) : decodeAcceptedCatalogState (AcceptedCatalogState.body ⟨1, s⟩) = some ⟨1, s⟩ := by
  unfold decodeAcceptedCatalogState AcceptedCatalogState.body
  rw [Json.parse_write_line (wellFormed_body s)]
  dsimp only
  rw [if_pos (by simp)]
  simp only [List.reverse_cons, List.reverse_nil, List.nil_append, List.cons_append]
  rw [Json.lookup_cons_of_ne (by decide), List.lookup_cons_self, List.lookup_cons_self, Json.readInt64_integer,
    Json.readInt64_integer]
  simp [h]

theorem decode_eq_some {body : Text} {state : AcceptedCatalogState} (h : decodeAcceptedCatalogState body = some state) :
    state.version = 1 ∧ ¬state.sequence < 1 := by
  unfold decodeAcceptedCatalogState at h
  split at h
  · split at h
    · obtain ⟨version, -, h⟩ := Option.bind_eq_some_iff.1 h
      obtain ⟨sequence, -, h⟩ := Option.bind_eq_some_iff.1 h
      split at h
      · cases h
      · rename_i hchecked
        obtain rfl := Option.some.inj h
        rw [not_or, not_not] at hchecked
        exact hchecked
    · cases h
  · cases h

theorem bytes_numeral_le {n : ℕ} (h : n < 2 ^ 63) : Json.bytes (Json.numeral n) ≤ 19 := by
  have hlength : (Json.numeral n).length ≤ 19 := Nat.toDigits_length 10 n 19 (by decide) (by omega)
  have hone : ∀ c ∈ Json.numeral n, c.utf8Size = 1 := by
    intro c hc
    have hdigit := Json.isDigit_of_mem_numeral hc
    simp only [Json.isDigit, Bool.and_eq_true, decide_eq_true_eq, Char.le_def, UInt32.le_iff_toNat_le] at hdigit
    rw [Char.utf8Size_eq_one_iff, UInt32.le_iff_toNat_le]
    have : '9'.val.toNat = 57 := by decide
    have : (127 : UInt32).toNat = 127 := by decide
    omega
  have hbytes : Json.bytes (Json.numeral n) = (Json.numeral n).length := by
    unfold Json.bytes
    rw [List.map_congr_left hone]
    simp
  omega

theorem body_eq (s : Int64) : ∃ front back : Text, AcceptedCatalogState.body ⟨1, s⟩ = front ++ Json.integer s.toInt ++ back ∧
    front ≠ [] ∧ Json.bytes front + Json.bytes back ≤ 1000 := by
  refine ⟨"\x7b\"version\":1,\"sequence\":".toList, "\x7d\n".toList, ?_, by decide, by decide⟩
  have hone : Json.integer 1 = ['1'] := by decide
  have hversion : Json.quote true "version" = "\"version\"".toList := by decide
  have hsequence : Json.quote true "sequence" = "\"sequence\"".toList := by decide
  simp [AcceptedCatalogState.body, Json.write, Json.writeMembers, hone, hversion, hsequence]

theorem bytes_body_le (h : ¬s < 1) : Json.bytes (AcceptedCatalogState.body ⟨1, s⟩) ≤ acceptedCatalogMaximum := by
  obtain ⟨front, back, hbody, -, hbytes⟩ := body_eq s
  obtain ⟨n, -, hlt, hinteger⟩ := integer_toInt h
  have hnumeral := bytes_numeral_le hlt
  rw [hbody, Json.bytes_append, Json.bytes_append, hinteger]
  unfold acceptedCatalogMaximum
  omega

theorem body_ne_nil (s : Int64) : AcceptedCatalogState.body ⟨1, s⟩ ≠ [] := by
  obtain ⟨front, back, hbody, hfront, -⟩ := body_eq s
  rw [hbody]
  simp [hfront]

/-! ## What the files say -/

/-- What a state file says: nothing if it cannot be read, otherwise whether there is one. -/
def stateOf : Option (Files.Node Text) → Option (Option AcceptedCatalogState)
  | none => some none
  | some .dir => none
  | some (.file body) =>
    if body = [] ∨ Json.bytes body > acceptedCatalogMaximum then none else (decodeAcceptedCatalogState body).map some

/-- Whether the marker is there, if it can be read. -/
def requiredOf : Option (Files.Node Text) → Option Bool
  | none => some false
  | some .dir => none
  | some (.file body) => if body = acceptedCatalogRequiredBody then some true else none

theorem stateOf_body (h : ¬s < 1) : stateOf (some (.file (AcceptedCatalogState.body ⟨1, s⟩))) = some (some ⟨1, s⟩) := by
  unfold stateOf
  dsimp only
  rw [if_neg (not_or.2 ⟨body_ne_nil s, not_lt.2 (bytes_body_le h)⟩), decode_body h]
  rfl

theorem stateOf_eq_some {state : AcceptedCatalogState} (h : stateOf entry = some (some state)) :
    state.version = 1 ∧ ¬state.sequence < 1 := by
  unfold stateOf at h
  split at h
  · cases h
  · cases h
  · split at h
    · cases h
    · obtain ⟨state', hdecode, hstate⟩ := Option.map_eq_some_iff.1 h
      obtain rfl := Option.some.inj hstate
      exact decode_eq_some hdecode

/-- The state in effect, given the accepted and the pending one. -/
def effective (accepted pending : Option AcceptedCatalogState) : Option AcceptedCatalogState :=
  match pending with
  | none => accepted
  | some p => if accepted.any fun a => p.sequence < a.sequence then accepted else some p

/-- The files are readable and say this. -/
structure Says (d : CatalogDisk) (accepted pending : Option AcceptedCatalogState) (required : Bool) : Prop where
  accepted : stateOf (d .accepted) = some accepted
  pending : stateOf (d .pending) = some pending
  required : requiredOf (d .required) = some required

/-- The state files are readable and say this. -/
def Reads (d : CatalogDisk) (accepted pending : Option AcceptedCatalogState) : Prop :=
  stateOf (d .accepted) = some accepted ∧ stateOf (d .pending) = some pending

/-- The files are readable, the state is in effect, and if it is required it is there. -/
def InEffect (state : Option AcceptedCatalogState) (d : CatalogDisk) : Prop :=
  ∃ accepted pending required, Says d accepted pending required ∧ effective accepted pending = state ∧
    (required = true → state ≠ none)

/-- The disk after the recovery of a pending state. -/
def recovered (d : CatalogDisk) (accepted pending : Option AcceptedCatalogState) : CatalogDisk :=
  match pending with
  | none => d
  | some p =>
    if accepted.any fun a => p.sequence < a.sequence then d.set .pending none
    else (d.set .pending none).set .accepted (d .pending)

theorem recovered_required (d : CatalogDisk) (accepted pending : Option AcceptedCatalogState) :
    recovered d accepted pending .required = d .required := by
  unfold recovered
  cases pending with
  | none => rfl
  | some p =>
    dsimp only
    split
    · exact Files.Disk.set_of_ne (by decide)
    · rw [Files.Disk.set_of_ne (by decide), Files.Disk.set_of_ne (by decide)]

theorem Says.recovered (h : Says d accepted pending required) :
    Says (recovered d accepted pending) (effective accepted pending) none required := by
  unfold Operator.recovered effective
  cases pending with
  | none => exact h
  | some p =>
    dsimp only
    split
    · refine ⟨?_, ?_, ?_⟩
      · rw [Files.Disk.set_of_ne (by decide), h.accepted]
      · rw [Files.Disk.set_self]
        rfl
      · rw [Files.Disk.set_of_ne (by decide), h.required]
    · refine ⟨?_, ?_, ?_⟩
      · rw [Files.Disk.set_self, h.pending]
      · rw [Files.Disk.set_of_ne (by decide), Files.Disk.set_self]
        rfl
      · rw [Files.Disk.set_of_ne (by decide), Files.Disk.set_of_ne (by decide), h.required]

/-! ## The functions, step by step -/

/-- What a function over the files of the directory does. -/
abbrev Holds {α : Type} (faulty : Prop) (I : CatalogDisk → Prop) (p : CatalogAct α)
    (Q : Except CatalogFailure α → CatalogDisk → Prop) (d : CatalogDisk) : Prop := Files.Holds catalogVolume faulty I p Q d

section

variable {faulty : Prop} {I : CatalogDisk → Prop} {d : CatalogDisk} {α : Type}

/-- A function that has only read. -/
theorem read_holds {file : CatalogFile} {Q : Except CatalogFailure (Option AcceptedCatalogState) → CatalogDisk → Prop}
    (hI : I d) (hok : ∀ state, stateOf (d file) = some state → Q (.ok state) d)
    (hfail : (faulty ∨ stateOf (d file) = none) → ∀ e, Q (.error e) d) :
    Holds faulty I (readAcceptedCatalogState file) Q d := by
  unfold readAcceptedCatalogState
  refine ensures_bind.2 (Files.step_holds rfl (fun h => ⟨hI, hfail (.inl h) _⟩) ⟨hI, ?_⟩)
  dsimp only [Files.Disk.info]
  cases hentry : d file with
  | none => exact hok none (by rw [hentry]; rfl)
  | some node =>
    cases node with
    | dir => exact hfail (.inr (by rw [hentry]; rfl)) _
    | file body =>
      have hstate : stateOf (d file) = if body = [] ∨ Json.bytes body > acceptedCatalogMaximum then none
          else (decodeAcceptedCatalogState body).map some := by rw [hentry]; rfl
      dsimp only [Option.map_some]
      split
      · rename_i hsize
        exact hfail (.inr (by rw [hstate, if_pos (.inr hsize)])) _
      have hread : d.perform catalogVolume (.readFile file) = .ok (d, body) := by simp [Files.Disk.perform, hentry]
      refine ensures_bind.2 (Files.step_holds hread (fun h => ⟨hI, hfail (.inl h) _⟩) ⟨hI, ?_⟩)
      dsimp only
      split
      · rename_i hbody
        exact hfail (.inr (by rw [hstate, if_pos hbody])) _
      · rename_i hbody
        rw [if_neg hbody] at hstate
        cases hdecode : decodeAcceptedCatalogState body with
        | none => exact hfail (.inr (by rw [hstate, hdecode]; rfl)) _
        | some state => exact hok (some state) (by rw [hstate, hdecode]; rfl)

theorem requirement_holds {Q : Except CatalogFailure Bool → CatalogDisk → Prop} (hI : I d)
    (hok : ∀ required, requiredOf (d .required) = some required → Q (.ok required) d)
    (hfail : (faulty ∨ requiredOf (d .required) = none) → ∀ e, Q (.error e) d) :
    Holds faulty I readCatalogAcceptanceRequirement Q d := by
  unfold readCatalogAcceptanceRequirement
  refine ensures_bind.2 (Files.step_holds rfl (fun h => ⟨hI, hfail (.inl h) _⟩) ⟨hI, ?_⟩)
  dsimp only [Files.Disk.info]
  cases hentry : d .required with
  | none => exact hok false (by rw [hentry]; rfl)
  | some node =>
    cases node with
    | dir => exact hfail (.inr (by rw [hentry]; rfl)) _
    | file body =>
      have hrequired : requiredOf (d .required) = if body = acceptedCatalogRequiredBody then some true else none := by
        rw [hentry]
        rfl
      dsimp only [Option.map_some]
      split
      · rename_i hsize
        refine hfail (.inr ?_) _
        rw [hrequired, if_neg]
        rintro rfl
        exact absurd hsize (by decide)
      have hread : d.perform catalogVolume (.readFile .required) = .ok (d, body) := by simp [Files.Disk.perform, hentry]
      refine ensures_bind.2 (Files.step_holds hread (fun h => ⟨hI, hfail (.inl h) _⟩) ⟨hI, ?_⟩)
      dsimp only
      split
      · rename_i hbody
        exact hfail (.inr (by rw [hrequired, if_neg hbody])) _
      · rename_i hbody
        rw [not_not] at hbody
        exact hok true (by rw [hrequired, if_pos hbody])

theorem file_of_stateOf {state : AcceptedCatalogState} (h : stateOf entry = some (some state)) :
    ∃ body, entry = some (.file body) := by
  unfold stateOf at h
  split at h
  · cases h
  · cases h
  · exact ⟨_, rfl⟩

theorem recover_holds {Q : Except CatalogFailure (Option AcceptedCatalogState) → CatalogDisk → Prop} (hI : I d)
    (hok : ∀ accepted pending, Reads d accepted pending →
      I (recovered d accepted pending) ∧ Q (.ok (effective accepted pending)) (recovered d accepted pending))
    (hfail : (faulty ∨ stateOf (d .accepted) = none ∨ stateOf (d .pending) = none) → ∀ e, Q (.error e) d)
    (hlate : faulty → ∀ accepted pending, Reads d accepted pending → ∀ e, Q (.error e) (recovered d accepted pending)) :
    Holds faulty I recoverAcceptedCatalogState Q d := by
  unfold recoverAcceptedCatalogState
  refine ensures_bind.2 (read_holds hI ?_ fun h e => hfail (h.imp_right .inl) e)
  intro accepted haccepted
  refine ensures_bind.2 (read_holds hI ?_ fun h e => hfail (h.imp_right .inr) e)
  intro pending hpending
  have hdone := hok accepted pending ⟨haccepted, hpending⟩
  have hstopped : faulty → ∀ e, Q (.error e) d := fun h => hfail (.inl h)
  have hunsynced : faulty → ∀ e, Q (.error e) (recovered d accepted pending) :=
    fun h => hlate h accepted pending ⟨haccepted, hpending⟩
  unfold recovered at hdone hunsynced
  unfold effective at hdone
  cases pending with
  | none => exact hdone.2
  | some p =>
    obtain ⟨body, hbody⟩ := file_of_stateOf hpending
    dsimp only at hdone hunsynced ⊢
    split
    · -- an older pending state is dropped
      rename_i hstale
      rw [if_pos hstale] at hdone hunsynced
      have hremove : d.perform catalogVolume (.remove .pending) = .ok (d.set .pending none, ()) := by
        simp [Files.Disk.perform, hbody]
      refine ensures_bind.2 (Files.step_holds hremove (fun h => ⟨hI, hstopped h _⟩) ⟨hdone.1, ?_⟩)
      refine ensures_bind.2 (Files.step_holds rfl (fun h => ⟨hdone.1, hunsynced h _⟩) ⟨hdone.1, ?_⟩)
      rw [if_pos hstale] at hdone
      exact hdone.2
    · -- any other replaces the accepted one
      rename_i hfresh
      rw [if_neg hfresh] at hdone hunsynced
      have hrename : d.perform catalogVolume (.rename .pending .accepted) =
          .ok ((d.set .pending none).set .accepted (d .pending), ()) := by
        rw [Files.Disk.perform_rename_file hbody _ rfl, hbody]
        intro h
        rw [h] at haccepted
        cases haccepted
      refine ensures_bind.2 (Files.step_holds hrename (fun h => ⟨hI, hstopped h _⟩) ⟨hdone.1, ?_⟩)
      refine ensures_bind.2 (Files.step_holds rfl (fun h => ⟨hdone.1, hunsynced h _⟩) ⟨hdone.1, ?_⟩)
      rw [if_neg hfresh] at hdone
      exact hdone.2

/-- The disk with the marker. -/
def marked (d : CatalogDisk) : CatalogDisk := d.set .required (some (.file acceptedCatalogRequiredBody))

theorem publish_holds (hrequired : requiredOf (d .required) = some false) (hI : I d)
    (hok : I (marked d) ∧ Q (.ok ()) (marked d)) (hfail : faulty → ∀ e, Q (.error e) d ∧ Q (.error e) (marked d)) :
    Holds faulty I publishCatalogAcceptanceRequirement Q d := by
  have hnone : d .required = none := by
    unfold requiredOf at hrequired
    split at hrequired
    · assumption
    · cases hrequired
    · split at hrequired <;> cases hrequired
  unfold publishCatalogAcceptanceRequirement
  refine ensures_bind.2 (requirement_holds hI ?_ ?_)
  · intro required h
    obtain rfl : false = required := Option.some.inj (hrequired.symm.trans h)
    have hcreate : d.perform catalogVolume (.create .required acceptedCatalogRequiredBody) = .ok (marked d, ()) := by
      simp [Files.Disk.perform, hnone, Files.Disk.room, catalogVolume, marked]
    refine ensures_bind.2 (Files.step_holds hcreate (fun h => ⟨hI, (hfail h _).1⟩) ⟨hok.1, ?_⟩)
    exact Files.step_holds rfl (fun h => ⟨hok.1, (hfail h _).2⟩) hok
  · rintro (h | h) e
    · exact (hfail h e).1
    · rw [hrequired] at h
      cases h

/-- The first part of both calls: the recovery, and whether a state is required. -/
abbrev front {α : Type} (f : Option AcceptedCatalogState → Bool → CatalogAct α) : CatalogAct α := do
  let state ← recoverAcceptedCatalogState
  let required ← readCatalogAcceptanceRequirement
  f state required

variable {f : Option AcceptedCatalogState → Bool → CatalogAct α} {Q : Except CatalogFailure α → CatalogDisk → Prop}

theorem front_holds (hI : I d) (hrecovered : ∀ accepted pending, Reads d accepted pending → I (recovered d accepted pending))
    (hok : ∀ accepted pending required, Says d accepted pending required →
      Holds faulty I (f (effective accepted pending) required) Q (recovered d accepted pending))
    (hfail : (faulty ∨ ¬∃ accepted pending required, Says d accepted pending required) → ∀ e, Q (.error e) d ∧
      ∀ accepted pending, Reads d accepted pending → Q (.error e) (recovered d accepted pending)) :
    Holds faulty I (front f) Q d := by
  refine ensures_bind.2 (recover_holds hI ?_ ?_ ?_)
  · intro accepted pending hreads
    refine ⟨hrecovered _ _ hreads, ensures_bind.2 ?_⟩
    have hkept := recovered_required d accepted pending
    refine requirement_holds (hrecovered _ _ hreads) ?_ ?_
    · intro required hrequired
      rw [hkept] at hrequired
      exact hok accepted pending required ⟨hreads.1, hreads.2, hrequired⟩
    · intro h e
      refine (hfail (h.imp_right ?_) e).2 _ _ hreads
      rintro hnone ⟨_, _, required, hwords⟩
      rw [hkept, hwords.required] at hnone
      cases hnone
  · intro h e
    refine (hfail (h.imp_right ?_) e).1
    rintro hnone ⟨accepted, pending, required, hwords⟩
    rw [hwords.accepted, hwords.pending] at hnone
    rcases hnone with h | h <;> cases h
  · intro hfaulty accepted pending hreads e
    exact (hfail (.inl hfaulty) e).2 _ _ hreads

end

/-! ## The state in effect -/

/-- The sequence a state stands for. -/
def level : Option AcceptedCatalogState → Int64
  | none => 0
  | some state => state.sequence

/-- The result of a call that nothing disturbs. -/
def expected (directory : CatalogDirectory) (state : Option AcceptedCatalogState) : CatalogRequest → Except CatalogFailure Int64
  | .acceptance sequence embeddedMinimum =>
    if !directory.canonical ∨ sequence < 1 ∨ embeddedMinimum < 0 ∨ sequence < embeddedMinimum then
      .error .sequenceDowngrade
    else if !directory.trusted then .error (.failed "release catalog acceptance is unavailable")
    else if state.any fun state => sequence < state.sequence then .error .sequenceDowngrade
    else .ok sequence
  | .snapshot =>
    if !directory.canonical || !directory.trusted then .error (.failed "release catalog acceptance is unavailable")
    else .ok (level state)

/-- The state in effect after a call that succeeded. -/
def next (state : Option AcceptedCatalogState) : CatalogRequest → Option AcceptedCatalogState
  | .acceptance sequence _ => some ⟨1, sequence⟩
  | .snapshot => state

theorem effective_none (accepted : Option AcceptedCatalogState) : effective accepted none = accepted := rfl

theorem Says.inEffect (h : Says d state none required) (hrequired : required = true → state ≠ none) :
    InEffect state d :=
  ⟨state, none, required, h, rfl, hrequired⟩

theorem Says.unique {accepted' pending' : Option AcceptedCatalogState} (h : Says d accepted pending required)
    (hreads : Reads d accepted' pending') : accepted' = accepted ∧ pending' = pending :=
  ⟨Option.some.inj (hreads.1.symm.trans h.accepted), Option.some.inj (hreads.2.symm.trans h.pending)⟩

theorem Says.marked (h : Says d accepted pending required) : Says (marked d) accepted pending true := by
  refine ⟨?_, ?_, ?_⟩
  · rw [Operator.marked, Files.Disk.set_of_ne (by decide), h.accepted]
  · rw [Operator.marked, Files.Disk.set_of_ne (by decide), h.pending]
  · rw [Operator.marked, Files.Disk.set_self]
    rfl

theorem InEffect.valid {state : AcceptedCatalogState} (h : InEffect (some state) d) :
    state.version = 1 ∧ ¬state.sequence < 1 := by
  obtain ⟨accepted, pending, required, hwords, heffective, -⟩ := h
  cases pending with
  | none =>
    rw [effective_none] at heffective
    exact stateOf_eq_some (heffective ▸ hwords.accepted)
  | some p =>
    unfold effective at heffective
    dsimp only at heffective
    split at heffective
    · exact stateOf_eq_some (heffective ▸ hwords.accepted)
    · exact stateOf_eq_some (heffective ▸ hwords.pending)

/-- A success never goes below the state in effect, and the state it leaves stands for its result. -/
theorem expected_ok (h : InEffect state d) (hv : expected directory state request = .ok v) :
    level state ≤ v ∧ level (next state request) = v := by
  cases request with
  | snapshot =>
    unfold expected at hv
    dsimp only at hv
    split at hv
    · cases hv
    · obtain rfl := Except.ok.inj hv
      exact ⟨Int64.le_refl _, rfl⟩
  | acceptance sequence embeddedMinimum =>
    unfold expected at hv
    dsimp only at hv
    split at hv
    · cases hv
    split at hv
    · cases hv
    split at hv
    · cases hv
    rename_i hchecks htrusted hfits
    obtain rfl := Except.ok.inj hv
    refine ⟨?_, rfl⟩
    cases state with
    | none =>
      have hpos : ¬sequence < 1 := fun hlt => hchecks (.inr (.inl hlt))
      rw [Int64.not_lt] at hpos
      exact Int64.le_trans (by decide) hpos
    | some state =>
      have hle : ¬sequence < state.sequence := by simpa using hfits
      exact Int64.not_lt.1 hle

theorem expected_directory (hv : expected directory state request = .ok v) :
    directory.canonical = true ∧ directory.trusted = true := by
  cases request with
  | snapshot =>
    unfold expected at hv
    dsimp only at hv
    split at hv
    · cases hv
    · rename_i hdirectory
      simpa using hdirectory
  | acceptance =>
    unfold expected at hv
    dsimp only at hv
    split at hv
    · cases hv
    split at hv
    · cases hv
    rename_i hchecks htrusted
    exact ⟨by_contra fun hnot => hchecks (.inl (by simpa using hnot)), by simpa using htrusted⟩

/-- An acceptance that passes the checks of its arguments and is not below the state in effect. -/
theorem expected_acceptance (hdirectory : directory.canonical = true ∧ directory.trusted = true) (hpos : 1 ≤ s)
    (hlevel : level state ≤ s) (hnonneg : 0 ≤ embeddedMinimum) (hle : embeddedMinimum ≤ s) :
    expected directory state (.acceptance s embeddedMinimum) = .ok s := by
  unfold expected
  dsimp only
  rw [if_neg, if_neg, if_neg]
  · cases state with
    | none => exact nofun
    | some state => simpa [level] using hlevel
  · simp [hdirectory.2]
  · rintro (h | h | h | h)
    · simp [hdirectory.1] at h
    · exact Int64.not_lt.2 hpos h
    · exact Int64.not_lt.2 hnonneg h
    · exact Int64.not_lt.2 hle h

/-! ## The calls -/

section

variable {faulty : Prop} {I : CatalogDisk → Prop} {d : CatalogDisk} {directory : CatalogDirectory}
  {state : Option AcceptedCatalogState} {required : Bool}
variable {sequence : Int64}

theorem holds_map {p : CatalogAct Unit} {Q : Except CatalogFailure Int64 → CatalogDisk → Prop}
    (h : Holds faulty I p (fun r d' => Q (r.map fun _ => v) d') d) : Holds faulty I (do p; pure v) Q d := by
  refine ensures_bind.2 (h.mono ?_)
  rintro (e | _) d' hQ
  · exact hQ
  · exact hQ

/-- The last part of both calls. -/
theorem finish_holds (h : Says d state none required) (hsome : state ≠ none) (hI : ∀ d', InEffect state d' → I d')
    (hok : ∀ d', InEffect state d' → Q (.ok ()) d') (hfail : faulty → ∀ d' e, InEffect state d' → Q (.error e) d') :
    Holds faulty I (if required then pure () else publishCatalogAcceptanceRequirement) Q d := by
  have hd : InEffect state d := h.inEffect fun _ => hsome
  have hmarked : InEffect state (marked d) := h.marked.inEffect fun _ => hsome
  cases required with
  | true => exact hok d hd
  | false =>
    exact publish_holds h.required (hI d hd) ⟨hI _ hmarked, hok _ hmarked⟩
      fun hfaulty e => ⟨hfail hfaulty _ e hd, hfail hfaulty _ e hmarked⟩

/-- Where a call can leave the state: as it was, or as it is after its success. -/
def Kept (directory : CatalogDirectory) (state : Option AcceptedCatalogState) (request : CatalogRequest)
    (d : CatalogDisk) : Prop :=
  InEffect state d ∨ (∃ v, expected directory state request = .ok v) ∧ InEffect (next state request) d

/-- How a call ends. -/
structure Ends (faulty : Prop) (directory : CatalogDirectory) (state : Option AcceptedCatalogState)
    (request : CatalogRequest) (r : Except CatalogFailure Int64) (d : CatalogDisk) : Prop where
  kept : Kept directory state request d
  ok : ∀ v, r = .ok v → expected directory state request = .ok v ∧ InEffect (next state request) d
  undisturbed : ¬faulty → r = expected directory state request

theorem Ends.of_error {e : CatalogFailure} (hkept : Kept directory state request d)
    (h : ¬faulty → expected directory state request = .error e) : Ends faulty directory state request (.error e) d :=
  ⟨hkept, nofun, fun hnot => (h hnot).symm⟩

theorem Ends.of_ok (h : expected directory state request = .ok v) (hnext : InEffect (next state request) d) :
    Ends faulty directory state request (.ok v) d := by
  refine ⟨.inr ⟨⟨v, h⟩, hnext⟩, ?_, fun _ => h.symm⟩
  rintro _ ⟨⟩
  exact ⟨h, hnext⟩

/-- A call whose first part is done from the recovered disk on. -/
theorem front_of_inEffect {α : Type} {f : Option AcceptedCatalogState → Bool → CatalogAct α}
    {Q : Except CatalogFailure α → CatalogDisk → Prop} (h : InEffect state d) (hI : ∀ d', InEffect state d' → I d')
    (hfail : faulty → ∀ d' e, InEffect state d' → Q (.error e) d')
    (hok : ∀ required d', Says d' state none required → (required = true → state ≠ none) →
      Holds faulty I (f state required) Q d') : Holds faulty I (front f) Q d := by
  have hd := h
  obtain ⟨accepted, pending, required, hwords, rfl, hrequired⟩ := h
  have hrecovered := hwords.recovered.inEffect hrequired
  refine front_holds (hI d hd) ?_ ?_ ?_
  · intro accepted' pending' hreads
    obtain ⟨rfl, rfl⟩ := hwords.unique hreads
    exact hI _ hrecovered
  · intro accepted' pending' required' hwords'
    obtain ⟨rfl, rfl⟩ := hwords.unique ⟨hwords'.accepted, hwords'.pending⟩
    obtain rfl := Option.some.inj (hwords.required.symm.trans hwords'.required)
    exact hok _ _ hwords.recovered hrequired
  · rintro (hfaulty | hnone) e
    · refine ⟨hfail hfaulty _ e hd, ?_⟩
      intro accepted' pending' hreads
      obtain ⟨rfl, rfl⟩ := hwords.unique hreads
      exact hfail hfaulty _ e hrecovered
    · exact absurd ⟨_, _, _, hwords⟩ hnone

theorem snapshot_holds (h : InEffect state d) :
    Holds faulty (Kept directory state .snapshot) (catalogCall directory .snapshot)
      (Ends faulty directory state .snapshot) d := by
  unfold catalogCall beginServerCatalogSnapshot
  dsimp only
  split
  · rename_i hdirectory
    exact .of_error (.inl h) fun _ => if_pos hdirectory
  rename_i hdirectory
  have hexpected : expected directory state .snapshot = .ok (level state) := if_neg hdirectory
  have hstopped : faulty → ∀ d' e, InEffect state d' → Ends faulty directory state .snapshot (.error e) d' :=
    fun hfaulty _ _ hd' => .of_error (.inl hd') fun hnot => absurd hfaulty hnot
  refine front_of_inEffect h (fun _ => .inl) hstopped ?_
  intro required d' hwords hrequired
  cases state with
  | none =>
    cases required with
    | true => exact absurd rfl (hrequired rfl)
    | false => exact .of_ok hexpected (hwords.inEffect hrequired)
  | some accepted =>
    have hfinish := finish_holds (I := Kept directory (some accepted) .snapshot)
      (Q := fun r d' => Ends faulty directory (some accepted) .snapshot (r.map fun _ => accepted.sequence) d')
      hwords nofun (fun _ => .inl) (fun d' hd' => .of_ok hexpected hd') hstopped
    cases required with
    | true => exact hfinish
    | false => exact holds_map hfinish

theorem Says.pending_set (h : Says d state none required) (hpos : ¬sequence < 1) :
    Says (d.set .pending (some (.file (AcceptedCatalogState.body ⟨1, sequence⟩)))) state (some ⟨1, sequence⟩) required := by
  refine ⟨?_, ?_, ?_⟩
  · rw [Files.Disk.set_of_ne (by decide), h.accepted]
  · rw [Files.Disk.set_self, stateOf_body hpos]
  · rw [Files.Disk.set_of_ne (by decide), h.required]

theorem absent_of_stateOf (h : stateOf entry = some none) : entry = none := by
  unfold stateOf at h
  split at h
  · rfl
  · cases h
  · split at h
    · cases h
    · cases hdecode : decodeAcceptedCatalogState _ with
      | none =>
        rw [hdecode] at h
        cases h
      | some state =>
        rw [hdecode] at h
        cases h

/-- The publication of a state that is not older than the one in effect. -/
theorem publication_holds {message : String} {f : CatalogAct Unit} (h : Says d state none required)
    (hpos : ¬sequence < 1) (hfits : ¬(state.any fun accepted => sequence < accepted.sequence) = true)
    (hrequired : required = true → state ≠ none) (hI : ∀ d', InEffect state d' → I d')
    (hI' : ∀ d', InEffect (some ⟨1, sequence⟩) d' → I d')
    (hfail : faulty → ∀ d' e, InEffect state d' ∨ InEffect (some ⟨1, sequence⟩) d' → Q (.error e) d')
    (hok : ∀ d', Says d' (some ⟨1, sequence⟩) none required → Holds faulty I f Q d') :
    Holds faulty I (do
      orFail (.create .pending (AcceptedCatalogState.body ⟨1, sequence⟩)) message
      orFail (.sync .pending) message
      orFail (.rename .pending .accepted) message
      orFail (.sync .accepted) message
      f) Q d := by
  have hd : InEffect state d := h.inEffect hrequired
  have habsent : d .pending = none := absent_of_stateOf h.pending
  set written := d.set .pending (some (.file (AcceptedCatalogState.body ⟨1, sequence⟩))) with hwritten
  have hwords : Says written state (some ⟨1, sequence⟩) required := h.pending_set hpos
  have heffective : effective state (some ⟨1, sequence⟩) = some ⟨1, sequence⟩ := if_neg hfits
  have hinWritten : InEffect (some ⟨1, sequence⟩) written := ⟨_, _, _, hwords, heffective, fun _ => nofun⟩
  have hwords' := heffective ▸ hwords.recovered
  have hrecovered : recovered written state (some ⟨1, sequence⟩) =
      (written.set .pending none).set .accepted (written .pending) := if_neg hfits
  have hinAccepted : InEffect (some ⟨1, sequence⟩) (recovered written state (some ⟨1, sequence⟩)) :=
    hwords'.inEffect fun _ => nofun
  have hcreate : d.perform catalogVolume (.create .pending (AcceptedCatalogState.body ⟨1, sequence⟩)) =
      .ok (written, ()) := by
    simp [Files.Disk.perform, habsent, Files.Disk.room, catalogVolume, hwritten]
  have hrename : written.perform catalogVolume (.rename .pending .accepted) =
      .ok (recovered written state (some ⟨1, sequence⟩), ()) := by
    have hentry : written .pending = some (.file (AcceptedCatalogState.body ⟨1, sequence⟩)) := Files.Disk.set_self
    rw [hrecovered, Files.Disk.perform_rename_file hentry _ rfl, hentry]
    intro h
    have hreadable := hwords.accepted
    rw [h] at hreadable
    cases hreadable
  refine ensures_bind.2 (Files.step_holds hcreate (fun hf => ⟨hI d hd, hfail hf _ _ (.inl hd)⟩) ⟨hI' _ hinWritten, ?_⟩)
  refine ensures_bind.2 (Files.step_holds rfl (fun hf => ⟨hI' _ hinWritten, hfail hf _ _ (.inr hinWritten)⟩)
    ⟨hI' _ hinWritten, ?_⟩)
  refine ensures_bind.2 (Files.step_holds hrename (fun hf => ⟨hI' _ hinWritten, hfail hf _ _ (.inr hinWritten)⟩)
    ⟨hI' _ hinAccepted, ?_⟩)
  refine ensures_bind.2 (Files.step_holds rfl (fun hf => ⟨hI' _ hinAccepted, hfail hf _ _ (.inr hinAccepted)⟩)
    ⟨hI' _ hinAccepted, ?_⟩)
  exact hok _ hwords'

theorem acceptance_holds (h : InEffect state d) :
    Holds faulty (Kept directory state (.acceptance sequence embeddedMinimum))
      (catalogCall directory (.acceptance sequence embeddedMinimum))
      (Ends faulty directory state (.acceptance sequence embeddedMinimum)) d := by
  set request := CatalogRequest.acceptance sequence embeddedMinimum with hrequest
  unfold catalogCall beginServerCatalogAcceptance
  refine holds_map ?_
  dsimp only [hrequest]
  split
  · rename_i hchecks
    exact .of_error (.inl h) fun _ => if_pos hchecks
  rename_i hchecks
  have hexpected : expected directory state request = _ := if_neg hchecks
  split
  · rename_i htrusted
    exact .of_error (.inl h) fun _ => hexpected.trans (if_pos htrusted)
  rename_i htrusted
  rw [if_neg htrusted] at hexpected
  have hpos : ¬sequence < 1 := fun hlt => hchecks (.inr (.inl hlt))
  refine front_of_inEffect h (fun _ => .inl)
    (fun hfaulty _ _ hd' => .of_error (.inl hd') fun hnot => absurd hfaulty hnot) ?_
  intro required d' hwords hrequired
  have hd' : InEffect state d' := hwords.inEffect hrequired
  split
  · rename_i hmissing
    exact absurd hmissing.2 (hrequired hmissing.1)
  split
  · rename_i hbelow
    exact .of_error (.inl hd') fun _ => hexpected.trans (if_pos hbelow)
  rename_i hfits
  rw [if_neg hfits] at hexpected
  have hkept : ∀ d', InEffect (some ⟨1, sequence⟩) d' → Kept directory state request d' :=
    fun _ hnext => .inr ⟨⟨sequence, hexpected⟩, hnext⟩
  have hfinish : ∀ d', Says d' (some ⟨1, sequence⟩) none required →
      Holds faulty (Kept directory state request)
        (if required then pure () else publishCatalogAcceptanceRequirement)
        (fun r d' => Ends faulty directory state request (r.map fun _ => sequence) d') d' :=
    fun d' hwords' => finish_holds hwords' nofun hkept (fun d' hnext => .of_ok hexpected hnext)
      fun hfaulty d' e hnext => .of_error (hkept d' hnext) fun hnot => absurd hfaulty hnot
  split
  · -- the sequence is the one in effect
    rename_i hsame
    obtain ⟨accepted, rfl, heq⟩ : ∃ accepted, state = some accepted ∧ sequence = accepted.sequence := by
      cases state with
      | none => cases hsame
      | some accepted => exact ⟨accepted, rfl, by simpa using hsame⟩
    obtain rfl : accepted = ⟨1, sequence⟩ := by
      rw [heq, ← h.valid.1]
    exact hfinish d' hwords
  · exact publication_holds hwords hpos hfits hrequired (fun _ => .inl) hkept
      (fun hfaulty d' e hd' => .of_error (hd'.elim .inl (hkept d')) fun hnot => absurd hfaulty hnot) hfinish

/-- Every call, from a disk on which a state is in effect. -/
theorem call_holds (directory : CatalogDirectory) (request : CatalogRequest) (h : InEffect state d) :
    Holds faulty (Kept directory state request) (catalogCall directory request)
      (Ends faulty directory state request) d := by
  cases request with
  | acceptance => exact acceptance_holds h
  | snapshot => exact snapshot_holds h

/-- No state is in effect: a file cannot be read, or a required state is not there. -/
def Broken (d : CatalogDisk) : Prop := ¬∃ state, InEffect state d

theorem broken_recovered {accepted pending : Option AcceptedCatalogState} (h : Broken d)
    (hreads : Reads d accepted pending) : Broken (recovered d accepted pending) := by
  rintro ⟨state, _, _, required, hwords, heffective, hrequired⟩
  have hkept : requiredOf (d .required) = some required := recovered_required d accepted pending ▸ hwords.required
  have hwords' : Says d accepted pending required := ⟨hreads.1, hreads.2, hkept⟩
  obtain ⟨rfl, rfl⟩ := hwords'.recovered.unique ⟨hwords.accepted, hwords.pending⟩
  exact h ⟨_, accepted, pending, required, hwords', rfl, heffective ▸ hrequired⟩

/-- From a broken disk no call succeeds, and it stays broken. -/
theorem call_broken (directory : CatalogDirectory) (request : CatalogRequest) (h : Broken d) :
    Holds True Broken (catalogCall directory request) (fun r d' => (∀ v, r ≠ .ok v) ∧ Broken d') d := by
  have hfront : ∀ {α : Type} {f : Option AcceptedCatalogState → Bool → CatalogAct α}
      {Q : Except CatalogFailure α → CatalogDisk → Prop}, (∀ d' e, Broken d' → Q (.error e) d') →
      (∀ d', Broken d' → Holds True Broken (f none true) Q d') →
      Holds True Broken (front f) Q d := by
    intro α f Q hfail hmissing
    refine front_holds h (fun _ _ => broken_recovered h) ?_ fun _ e => ⟨hfail d e h, fun _ _ hreads =>
      hfail _ e (broken_recovered h hreads)⟩
    intro accepted pending required hwords
    have hbroken := broken_recovered h ⟨hwords.accepted, hwords.pending⟩
    obtain ⟨rfl, hnone⟩ : required = true ∧ effective accepted pending = none := by
      by_contra hnot
      refine h ⟨_, accepted, pending, required, hwords, rfl, ?_⟩
      rintro rfl hnone
      exact hnot ⟨rfl, hnone⟩
    rw [hnone]
    exact hmissing _ hbroken
  cases request with
  | snapshot =>
    unfold catalogCall beginServerCatalogSnapshot
    dsimp only
    split
    · exact ⟨nofun, h⟩
    · exact hfront (fun _ _ hd' => ⟨nofun, hd'⟩) fun _ hd' => ⟨nofun, hd'⟩
  | acceptance =>
    unfold catalogCall beginServerCatalogAcceptance
    refine ensures_bind.2 ?_
    dsimp only
    split
    · exact ⟨nofun, h⟩
    split
    · exact ⟨nofun, h⟩
    · refine hfront (fun _ _ hd' => ⟨nofun, hd'⟩) ?_
      intro d' hd'
      rw [if_pos ⟨rfl, rfl⟩]
      exact ⟨nofun, hd'⟩

end

/-! ## Runs of calls -/

section

variable {d d' : CatalogDisk} {directory : CatalogDirectory} {state : Option AcceptedCatalogState}
variable {s : Int64} {request : CatalogRequest} {runs : List (CatalogRequest × List Bool)}

/-- A state in effect stands for this sequence or a later one. -/
def Above (s : Int64) (d : CatalogDisk) : Prop := ∃ state, InEffect state d ∧ s ≤ level state

theorem Kept.above (h : InEffect state d) (hs : s ≤ level state) (hkept : Kept directory state request d') :
    Above s d' := by
  obtain hsame | ⟨⟨v, hv⟩, hnext⟩ := hkept
  · exact ⟨state, hsame, hs⟩
  · obtain ⟨hle, heq⟩ := expected_ok h hv
    refine ⟨_, hnext, ?_⟩
    rw [heq]
    exact Int64.le_trans hs hle

theorem call_above (request : CatalogRequest) (h : Above s d) :
    Holds True (Above s) (catalogCall directory request) (fun _ => Above s) d := by
  obtain ⟨state, hstate, hs⟩ := h
  exact ((call_holds directory request hstate).mono fun _ _ hends => hends.kept.above hstate hs).weaken
    fun _ hkept => hkept.above hstate hs

/-- However calls ran, and wherever they stopped, a later success is not below. -/
theorem Above.later {os : List Bool} (h : Above s d) (hplay : ((catalogCall directory request).play catalogAnswer os
      (history catalogAnswer (catalogCall directory) runs d)).2 = some (.ok v)) : s ≤ v := by
  obtain ⟨state, hstate, hs⟩ := history_inv (fun run _ d hd => call_above run.1 hd) h
    (Files.historyAdmits_allowed runs)
  have hends := ((call_holds directory request hstate).play Files.admits_allowed (.inl hstate)).1 _ hplay
  exact Int64.le_trans hs (expected_ok hstate (hends.ok v rfl).1).1

theorem Broken.later {os : List Bool} (h : Broken d) :
    ((catalogCall directory request).play catalogAnswer os
      (history catalogAnswer (catalogCall directory) runs d)).2 ≠ some (.ok v) := by
  have hbroken := history_inv (fun run _ d hd => (call_broken directory run.1 hd).mono fun _ _ => And.right) h
    (Files.historyAdmits_allowed runs)
  intro hplay
  exact (((call_broken directory request hbroken).play Files.admits_allowed hbroken).1 _ hplay).1 v rfl

/-- The results of calls that run one after the other and that nothing disturbs. -/
def answers (directory : CatalogDirectory) : List CatalogRequest → CatalogDisk → List (Except CatalogFailure Int64)
  | [], _ => []
  | request :: requests, d =>
    let ended := (catalogCall directory request).complete catalogAnswer false d
    ended.2 :: answers directory requests ended.1

theorem undisturbed (directory : CatalogDirectory) (request : CatalogRequest) (h : InEffect state d) :
    Ends False directory state request ((catalogCall directory request).complete catalogAnswer false d).2
      ((catalogCall directory request).complete catalogAnswer false d).1 :=
  (call_holds directory request h).complete fun _ _ hfault => absurd hfault (by decide)

/-- The disk does not matter beyond the state in effect. -/
theorem answers_eq (requests : List CatalogRequest) (h : InEffect state d) (h' : InEffect state d') :
    answers directory requests d = answers directory requests d' := by
  induction requests generalizing state d d' with
  | nil => rfl
  | cons request requests ih =>
    have hends := undisturbed directory request h
    have hends' := undisturbed directory request h'
    have hresult := hends.undisturbed id
    have hresult' := hends'.undisturbed id
    unfold answers
    dsimp only
    rw [hresult, hresult']
    refine congrArg _ ?_
    cases hexpected : expected directory state request with
    | ok v =>
      rw [hexpected] at hresult hresult'
      exact ih (hends.ok v hresult).2 (hends'.ok v hresult').2
    | error e =>
      have hsame : ∀ {d}, Kept directory state request d → InEffect state d := by
        rintro d (hsame | ⟨⟨v, hv⟩, -⟩)
        · exact hsame
        · rw [hexpected] at hv
          cases hv
      exact ih (hsame hends.kept) (hsame hends'.kept)

end

/-- The server catalog's high-water mark. The calls on one directory run one after the other, each answered in any way
and stopped anywhere. A success with a sequence is never followed by one below it; an acceptance that was stopped
counts like a success for all later calls, or the later calls end as if it had not been made; and if a call could
succeed at the start, then after any calls every acceptance of a large enough sequence succeeds, and so does the
snapshot. -/
theorem catalog_high_water (directory : CatalogDirectory) :
    (∀ d s embeddedMinimum os runs request os' v,
      ((catalogCall directory (.acceptance s embeddedMinimum)).play catalogAnswer os d).2 = some (.ok s) →
      ((catalogCall directory request).play catalogAnswer os' (history catalogAnswer (catalogCall directory) runs
        ((catalogCall directory (.acceptance s embeddedMinimum)).play catalogAnswer os d).1)).2 = some (.ok v) →
      s ≤ v) ∧
    (∀ d s embeddedMinimum os,
      (∀ runs request os' v, ((catalogCall directory request).play catalogAnswer os'
        (history catalogAnswer (catalogCall directory) runs
          ((catalogCall directory (.acceptance s embeddedMinimum)).play catalogAnswer os d).1)).2 = some (.ok v) →
        s ≤ v) ∨
      ∀ requests, answers directory requests
        ((catalogCall directory (.acceptance s embeddedMinimum)).play catalogAnswer os d).1 =
          answers directory requests d) ∧
    ∀ d runs, (∃ request v, ((catalogCall directory request).complete catalogAnswer false d).2 = .ok v) →
      (∃ v, ((catalogCall directory .snapshot).complete catalogAnswer false
        (history catalogAnswer (catalogCall directory) runs d)).2 = .ok v) ∧
      ∃ bound, ∀ s embeddedMinimum, bound ≤ s → 0 ≤ embeddedMinimum → embeddedMinimum ≤ s →
        ((catalogCall directory (.acceptance s embeddedMinimum)).complete catalogAnswer false
          (history catalogAnswer (catalogCall directory) runs d)).2 = .ok s := by
  refine ⟨?_, ?_, ?_⟩
  · intro d s embeddedMinimum os runs request os' v hplay hlater
    by_cases hbroken : Broken d
    · have hends := ((call_broken directory _ hbroken).play Files.admits_allowed hbroken).1 _ hplay
      exact absurd rfl (hends.1 s)
    · obtain ⟨state, hstate⟩ := not_not.1 hbroken
      have hends := ((call_holds directory _ hstate).play Files.admits_allowed (.inl hstate)).1 _ hplay
      exact Above.later ⟨_, (hends.ok s rfl).2, Int64.le_refl s⟩ hlater
  · intro d s embeddedMinimum os
    by_cases hbroken : Broken d
    · have hleft : Broken ((catalogCall directory (.acceptance s embeddedMinimum)).play catalogAnswer os d).1 :=
        ((call_broken directory _ hbroken).mono fun _ _ => And.right).left Files.admits_allowed hbroken
      exact .inl fun runs request os' v hlater => absurd hlater hleft.later
    · obtain ⟨state, hstate⟩ := not_not.1 hbroken
      have hleft : Kept directory state (.acceptance s embeddedMinimum)
          ((catalogCall directory (.acceptance s embeddedMinimum)).play catalogAnswer os d).1 :=
        ((call_holds directory _ hstate).mono fun _ _ hends => hends.kept).left Files.admits_allowed (.inl hstate)
      obtain hsame | ⟨-, hnext⟩ := hleft
      · exact .inr fun requests => answers_eq requests hsame hstate
      · exact .inl fun runs request os' v hlater => Above.later ⟨_, hnext, Int64.le_refl s⟩ hlater
  · rintro d runs ⟨request, v, hcomplete⟩
    obtain ⟨state, hstate⟩ : ∃ state, InEffect state d := by
      by_contra hbroken
      exact ((call_broken directory request hbroken).complete fun _ _ _ => trivial).1 v hcomplete
    have hdirectory : directory.canonical = true ∧ directory.trusted = true := by
      have hexpected := ((undisturbed directory request hstate).ok v hcomplete).1
      exact expected_directory hexpected
    obtain ⟨state', hstate', -⟩ := history_inv (fun run _ d hd => call_above run.1 hd)
      (⟨state, hstate, Int64.le_refl _⟩ : Above _ d) (Files.historyAdmits_allowed runs)
    obtain ⟨bound, hbound⟩ : ∃ bound : Int64, 1 ≤ bound ∧ level state' ≤ bound := by
      rcases Int64.le_total 1 (level state') with hpos | hpos
      · exact ⟨level state', hpos, Int64.le_refl _⟩
      · exact ⟨1, Int64.le_refl _, hpos⟩
    refine ⟨⟨level state', ?_⟩, bound, ?_⟩
    · rw [(undisturbed directory .snapshot hstate').undisturbed id]
      simp [expected, hdirectory.1, hdirectory.2]
    · intro s embeddedMinimum hs hnonneg hle
      rw [(undisturbed directory _ hstate').undisturbed id]
      exact expected_acceptance hdirectory (Int64.le_trans hbound.1 hs) (Int64.le_trans hbound.2 hs) hnonneg hle

end Punaro.Operator
