import Mathlib.Data.String.Basic
import Punaro.Lib.Json

/-!
# Records as JSON objects

Numerals, members that are left out when they are empty, maps in the order of their
names, objects whose names are distinct, and the size of a text in bytes.
-/

namespace Json

abbrev Members := List (String × Value)

/-! ## Numerals -/

def numeral (n : ℕ) : List Char := Nat.toDigits 10 n

/-- A number that is written without sign, fraction and exponent. -/
def readNumeral (text : List Char) : Option ℕ :=
  if text ≠ [] ∧ text.all isDigit then some (Nat.ofDigitChars 10 text 0) else none

variable {name : String} {members : Members} {items : List Value}

theorem isDigit_of_mem_numeral {n : ℕ} {c : Char} (h : c ∈ numeral n) : isDigit c := by
  have hdigit : c.isDigit := Nat.isDigit_of_mem_toDigits (by decide) (by decide) h
  simpa [isDigit, Char.isDigit, Char.le_def, UInt32.le_iff_toNat_le] using hdigit

theorem readNumeral_numeral (n : ℕ) : readNumeral (numeral n) = some n := by
  have hall : (numeral n).all isDigit := List.all_eq_true.2 fun c hc => isDigit_of_mem_numeral hc
  rw [readNumeral, if_pos ⟨Nat.toDigits_ne_nil, hall⟩, numeral, Nat.ofDigitChars_toDigits (by decide) (by decide)]

/-- Zero is the only numeral that starts with a zero. -/
theorem numeral_cons (n : ℕ) : ∃ d l, numeral n = d :: l ∧ (d = '0' → l = []) := by
  induction n using Nat.strong_induction_on with
  | _ n ih =>
    rw [numeral, Nat.toDigits_eq_if (by decide)]
    split
    · exact ⟨_, [], rfl, fun _ => rfl⟩
    · rename_i hn
      obtain ⟨d, l, heq, hzero⟩ := ih (n / 10) (by omega)
      rw [numeral] at heq
      refine ⟨d, l ++ [(n % 10).digitChar], by rw [heq]; rfl, fun hd => absurd ?_ hn⟩
      have hread := readNumeral_numeral (n / 10)
      rw [numeral, heq, hd, hzero hd] at hread
      have : 0 = n / 10 := by simpa [readNumeral, isDigit, Nat.ofDigitChars] using hread
      omega

theorem validNumber_numeral (n : ℕ) : validNumber (numeral n) := by
  obtain ⟨d, l, heq, hzero⟩ := numeral_cons n
  have hdigit : ∀ c ∈ d :: l, isDigit c := fun c hc => isDigit_of_mem_numeral (heq ▸ hc)
  have hd : isDigit d := hdigit d (by simp)
  have hrest : l.dropWhile isDigit = [] := List.dropWhile_eq_nil_iff.2 fun c hc => hdigit c (by simp [hc])
  have hsign : d ≠ '-' := by rintro rfl; exact absurd hd (by decide)
  have hvalid : validUnsigned (d :: l) := by
    rw [validUnsigned]
    split
    · rename_i hd'
      rw [hzero hd']
      rfl
    · rw [hd, hrest]
      rfl
  rw [heq]
  unfold validNumber
  split
  · rename_i h
    exact absurd (List.cons.inj h).1 hsign
  · exact hvalid

/-! ## Integers -/

def integer : Int → List Char
  | .ofNat n => numeral n
  | .negSucc n => '-' :: numeral (n + 1)

/-- A number that is written without fraction and exponent. -/
def readInteger : List Char → Option Int
  | '-' :: text => (readNumeral text).map fun n => -(n : Int)
  | text => (readNumeral text).map fun n => (n : Int)

/-- A field of a 64-bit integer type. -/
def readInt64 : Option Value → Option Int64
  | none | some .null => some 0
  | some (.number text) =>
    (readInteger text).bind fun n => if -2 ^ 63 ≤ n ∧ n < 2 ^ 63 then some (Int64.ofInt n) else none
  | _ => none

theorem numeral_unsigned (n : ℕ) : ∃ c l, numeral n = c :: l ∧ c ≠ '-' := by
  obtain ⟨c, l, hcons, -⟩ := numeral_cons n
  have hdigit : isDigit c := isDigit_of_mem_numeral (n := n) (by simp [hcons])
  refine ⟨c, l, hcons, ?_⟩
  rintro rfl
  exact absurd hdigit (by decide)

theorem readInteger_integer (z : Int) : readInteger (integer z) = some z := by
  cases z with
  | ofNat n =>
    obtain ⟨c, l, hcons, hsign⟩ := numeral_unsigned n
    have hread := readNumeral_numeral n
    unfold integer readInteger
    dsimp only
    rw [hcons] at hread ⊢
    split
    · rename_i h
      exact absurd (List.cons.inj h).1 hsign
    · rw [hread]
      rfl
  | negSucc n =>
    change (readNumeral (numeral (n + 1))).map (fun n => -(n : Int)) = _
    rw [readNumeral_numeral]
    rfl

@[simp] theorem readInt64_integer (s : Int64) : readInt64 (some (.number (integer s.toInt))) = some s := by
  have hle := s.le_toInt
  have hlt := s.toInt_lt
  unfold readInt64
  dsimp only
  rw [readInteger_integer, Option.bind_some, if_pos ⟨hle, hlt⟩, Int64.ofInt_toInt]

theorem validNumber_integer (z : Int) : validNumber (integer z) := by
  cases z with
  | ofNat n => exact validNumber_numeral n
  | negSucc n =>
    have hvalid := validNumber_numeral (n + 1)
    obtain ⟨c, l, hcons, hsign⟩ := numeral_unsigned (n + 1)
    change validUnsigned (numeral (n + 1)) = true
    rw [hcons] at hvalid ⊢
    unfold validNumber at hvalid
    split at hvalid
    · rename_i h
      exact absurd (List.cons.inj h).1 hsign
    · exact hvalid

/-! ## Members -/

/-- A member that is left out if it is empty. -/
def unlessEmpty (name text : String) : Members := if text = "" then [] else [(name, .string text)]

theorem lookup_cons_of_ne {name' : String} {value : Value} (h : name ≠ name') :
    List.lookup name ((name', value) :: members) = members.lookup name := by
  rw [List.lookup_cons, beq_false_of_ne h]

theorem lookup_unlessEmpty_of_ne {name' text : String} (h : name ≠ name') :
    (unlessEmpty name' text).lookup name = none := by
  unfold unlessEmpty
  split
  · rfl
  · rw [lookup_cons_of_ne h, List.lookup_nil]

/-- The text of a member, which is empty if the member is missing or null. -/
def readText : Option Value → Option String
  | none | some .null => some ""
  | some (.string text) => some text
  | _ => none

theorem readText_unlessEmpty (name text : String) : readText ((unlessEmpty name text).lookup name) = some text := by
  unfold unlessEmpty
  split
  · rename_i h
    rw [h]
    rfl
  · rw [List.lookup_cons_self]
    rfl

theorem names_unlessEmpty (name text : String) : ((unlessEmpty name text).map Prod.fst).Sublist [name] := by
  unfold unlessEmpty
  split
  · exact List.nil_sublist _
  · exact List.Sublist.refl _

def itemsOf : Option Value → Option (List Value)
  | none | some .null => some []
  | some (.array items) => some items
  | _ => none

theorem itemsWellFormed_iff : itemsWellFormed items ↔ ∀ v ∈ items, v.WellFormed := by
  induction items with
  | nil => simp [itemsWellFormed]
  | cons item items ih => simp [itemsWellFormed, ih]

theorem membersWellFormed_iff : membersWellFormed members ↔ ∀ m ∈ members, m.2.WellFormed := by
  induction members with
  | nil => simp [membersWellFormed]
  | cons member members ih => simp [membersWellFormed, ih]

/-! ## Distinct names -/

mutual

/-- No object in the value has two members of one name. -/
def Value.unique : Value → Bool
  | .array items => itemsUnique items
  | .object members => (members.map Prod.fst).Nodup && membersUnique members
  | _ => true

def itemsUnique : List Value → Bool
  | [] => true
  | item :: items => item.unique && itemsUnique items

def membersUnique : Members → Bool
  | [] => true
  | (_, value) :: members => value.unique && membersUnique members

end

theorem itemsUnique_iff : itemsUnique items ↔ ∀ v ∈ items, v.unique := by
  induction items with
  | nil => simp [itemsUnique]
  | cons item items ih => simp [itemsUnique, ih]

theorem membersUnique_iff : membersUnique members ↔ ∀ m ∈ members, m.2.unique := by
  induction members with
  | nil => simp [membersUnique]
  | cons member members ih => simp [membersUnique, ih]

/-- A value that is read back from its text, and whose names are distinct. -/
structure Value.Proper (v : Value) : Prop where
  wellFormed : v.WellFormed
  unique : v.unique

theorem proper_null : Value.Proper .null := ⟨by simp [Value.WellFormed], by simp [Value.unique]⟩

theorem proper_bool (b : Bool) : Value.Proper (.bool b) := ⟨by simp [Value.WellFormed], by simp [Value.unique]⟩

theorem proper_string (text : String) : Value.Proper (.string text) :=
  ⟨by simp [Value.WellFormed], by simp [Value.unique]⟩

theorem proper_number {text : List Char} (h : validNumber text) : Value.Proper (.number text) :=
  ⟨by simpa [Value.WellFormed] using h, by simp [Value.unique]⟩

theorem proper_array (h : ∀ v ∈ items, v.Proper) : Value.Proper (.array items) where
  wellFormed := by
    rw [Value.WellFormed]
    exact itemsWellFormed_iff.2 fun v hv => (h v hv).wellFormed
  unique := by
    rw [Value.unique]
    exact itemsUnique_iff.2 fun v hv => (h v hv).unique

theorem proper_object (hnames : (members.map Prod.fst).Nodup) (h : ∀ m ∈ members, m.2.Proper) :
    Value.Proper (.object members) where
  wellFormed := by
    rw [Value.WellFormed]
    exact membersWellFormed_iff.2 fun m hm => (h m hm).wellFormed
  unique := by
    rw [Value.unique, Bool.and_eq_true, decide_eq_true_eq]
    exact ⟨hnames, membersUnique_iff.2 fun m hm => (h m hm).unique⟩

theorem proper_unlessEmpty {name text : String} {m : String × Value} (hm : m ∈ unlessEmpty name text) : m.2.Proper := by
  unfold unlessEmpty at hm
  split at hm
  · cases hm
  · obtain rfl := List.mem_singleton.1 hm
    exact proper_string text

/-! ## Maps -/

/-- A map from names to values, in the order of the names. -/
structure Dict where
  members : Members
  sorted : members.Pairwise fun m m' => m.1.toList < m'.1.toList

namespace Dict

def insertMember (m : String × Value) : Members → Members
  | [] => [m]
  | m' :: l => if m.1.toList < m'.1.toList then m :: m' :: l else if m.1 = m'.1 then m :: l else m' :: insertMember m l

theorem mem_insertMember {m m' : String × Value} {l : Members} (h : m' ∈ insertMember m l) : m' = m ∨ m' ∈ l := by
  fun_induction insertMember m l with
  | case1 => simpa using h
  | case2 m'' l _ => simpa using h
  | case3 m'' l _ _ =>
    rcases List.mem_cons.1 h with rfl | h
    · exact .inl rfl
    · exact .inr (List.mem_cons_of_mem _ h)
  | case4 m'' l _ _ ih =>
    rcases List.mem_cons.1 h with rfl | h
    · exact .inr (by simp)
    · exact (ih h).imp_right (List.mem_cons_of_mem _)

theorem sorted_insertMember {m : String × Value} {l : Members} (h : l.Pairwise fun m m' => m.1.toList < m'.1.toList) :
    (insertMember m l).Pairwise fun m m' => m.1.toList < m'.1.toList := by
  fun_induction insertMember m l with
  | case1 => exact List.pairwise_singleton _ _
  | case2 m' l hlt =>
    refine List.pairwise_cons.2 ⟨?_, h⟩
    rintro m'' (_ | ⟨_, hm''⟩)
    · exact hlt
    · exact hlt.trans (List.rel_of_pairwise_cons h hm'')
  | case3 m' l _ heq =>
    refine List.pairwise_cons.2 ⟨fun m'' hm'' => ?_, h.of_cons⟩
    exact heq ▸ List.rel_of_pairwise_cons h hm''
  | case4 m' l hlt hne ih =>
    refine List.pairwise_cons.2 ⟨fun m'' hm'' => ?_, ih h.of_cons⟩
    obtain rfl | hm'' := mem_insertMember hm''
    · exact lt_of_le_of_ne (not_lt.1 hlt) fun h => hne (String.toList_inj.1 h).symm
    · exact List.rel_of_pairwise_cons h hm''

def empty : Dict := ⟨[], List.Pairwise.nil⟩

def insert (m : String × Value) (d : Dict) : Dict := ⟨insertMember m d.members, sorted_insertMember d.sorted⟩

def ofMembers (members : Members) : Dict := members.foldr insert empty

/-- A map is read back from its members. -/
theorem ofMembers_members (d : Dict) : ofMembers d.members = d := by
  obtain ⟨members, h⟩ := d
  dsimp only
  induction members with
  | nil => rfl
  | cons m l ih =>
    rw [ofMembers, List.foldr_cons, ← ofMembers, ih h.of_cons, insert, Dict.mk.injEq]
    cases l with
    | nil => rfl
    | cons m' l => exact if_pos (List.rel_of_pairwise_cons h (by simp))

theorem nodup (d : Dict) : (d.members.map Prod.fst).Nodup :=
  List.pairwise_map.2 (d.sorted.imp fun h heq => ne_of_lt h (congrArg String.toList heq))

end Dict

/-! ## Sizes -/

/-- The length of a text in UTF-8. -/
def bytes (l : List Char) : ℕ := (l.map Char.utf8Size).sum

theorem bytes_append (l l' : List Char) : bytes (l ++ l') = bytes l + bytes l' := by
  simp [bytes]

end Json
