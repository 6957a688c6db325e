import Mathlib.Data.List.Basic
import Mathlib.Data.List.TakeWhile
import Mathlib.Data.Nat.Digits.Defs
import Mathlib.Tactic.Common

/-!
# JSON texts

Values, the compact text that an encoder writes for a value, and a reader. The reader
takes any JSON text; on the text of a well-formed value it gives the value back
(`parse_write`).
-/

namespace Json

inductive Value where
  | null
  | bool (b : Bool)
  | number (text : List Char)
  | string (text : String)
  | array (items : List Value)
  | object (members : List (String × Value))

/-! ## Writing -/

def hexDigit (n : ℕ) : Char := Char.ofNat (if n < 10 then 48 + n else 87 + n)

def hex4 (n : ℕ) : List Char :=
  [hexDigit (n / 4096 % 16), hexDigit (n / 256 % 16), hexDigit (n / 16 % 16), hexDigit (n % 16)]

/-- A character inside of a string; `html` also escapes the characters that are special in HTML. -/
def escape (html : Bool) (c : Char) : List Char :=
  if c = '\x22' then ['\\', '\x22']
  else if c = '\\' then ['\\', '\\']
  else if c = '\x08' then ['\\', 'b']
  else if c = '\x0c' then ['\\', 'f']
  else if c = '\n' then ['\\', 'n']
  else if c = '\r' then ['\\', 'r']
  else if c = '\t' then ['\\', 't']
  else if c.toNat < 32 ∨ html ∧ (c = '<' ∨ c = '>' ∨ c = '&') ∨ c.toNat = 8232 ∨ c.toNat = 8233 then
    '\\' :: 'u' :: hex4 c.toNat
  else [c]

def quote (html : Bool) (text : String) : List Char :=
  '\x22' :: (text.toList.flatMap (escape html) ++ ['\x22'])

mutual

def write (html : Bool) : Value → List Char
  | .null => ['n', 'u', 'l', 'l']
  | .bool true => ['t', 'r', 'u', 'e']
  | .bool false => ['f', 'a', 'l', 's', 'e']
  | .number text => text
  | .string text => quote html text
  | .array [] => ['[', ']']
  | .array (item :: items) => '[' :: (write html item ++ writeItems html items)
  | .object [] => ['\x7b', '\x7d']
  | .object ((name, value) :: members) =>
    '\x7b' :: (quote html name ++ ':' :: (write html value ++ writeMembers html members))

/-- What follows the first item of an array. -/
def writeItems (html : Bool) : List Value → List Char
  | [] => [']']
  | item :: items => ',' :: (write html item ++ writeItems html items)

/-- What follows the first member of an object. -/
def writeMembers (html : Bool) : List (String × Value) → List Char
  | [] => ['\x7d']
  | (name, value) :: members =>
    ',' :: (quote html name ++ ':' :: (write html value ++ writeMembers html members))

end

/-! ## Reading -/

def isSpace (c : Char) : Bool := c = ' ' || c = '\t' || c = '\n' || c = '\r'

def skip (l : List Char) : List Char := l.dropWhile isSpace

def hexValue (c : Char) : Option ℕ :=
  if '0' ≤ c ∧ c ≤ '9' then some (c.toNat - 48)
  else if 'a' ≤ c ∧ c ≤ 'f' then some (c.toNat - 87)
  else if 'A' ≤ c ∧ c ≤ 'F' then some (c.toNat - 55)
  else none

def hexQuad (a b c d : Char) : Option ℕ := do
  let a ← hexValue a
  let b ← hexValue b
  let c ← hexValue c
  let d ← hexValue d
  return ((a * 16 + b) * 16 + c) * 16 + d

def unescape (c : Char) : Option Char :=
  match c with
  | '\x22' => some '\x22'
  | '\\' => some '\\'
  | '/' => some '/'
  | 'b' => some '\x08'
  | 'f' => some '\x0c'
  | 'n' => some '\n'
  | 'r' => some '\r'
  | 't' => some '\t'
  | _ => none

/-- The character that stands for half of a surrogate pair. -/
def replacement : Char := '�'

/-- The first half of a surrogate pair whose second half did not come. -/
def flush (high : Option ℕ) (l : List Char) : List Char := if high.isSome then replacement :: l else l

/-- The text of a string up to its closing quote, and what follows; `high` is the first half of a surrogate pair
that has just been read. -/
def readString : Option ℕ → List Char → Option (List Char × List Char)
  | _, [] => none
  | high, '\\' :: 'u' :: a :: b :: c :: d :: l =>
    match hexQuad a b c d with
    | none => none
    | some n =>
      if 55296 ≤ n ∧ n < 56320 then (readString (some n) l).map fun r => (flush high r.1, r.2)
      else if 56320 ≤ n ∧ n < 57344 then
        match high with
        | some h => (readString none l).map fun r => (Char.ofNat (65536 + (h - 55296) * 1024 + (n - 56320)) :: r.1, r.2)
        | none => (readString none l).map fun r => (replacement :: r.1, r.2)
      else (readString none l).map fun r => (flush high (Char.ofNat n :: r.1), r.2)
  | high, '\\' :: c :: l =>
    match unescape c with
    | none => none
    | some c => (readString none l).map fun r => (flush high (c :: r.1), r.2)
  | high, c :: l =>
    if c = '\x22' then some (flush high [], l)
    else if c.toNat < 32 ∨ c = '\\' then none
    else (readString none l).map fun r => (flush high (c :: r.1), r.2)

def isDigit (c : Char) : Bool := '0' ≤ c && c ≤ '9'

def numberChar (c : Char) : Bool := isDigit c || c = '-' || c = '+' || c = '.' || c = 'e' || c = 'E'

/-- What follows the integer part of a number: a fraction and an exponent. -/
def validExponent : List Char → Bool
  | [] => true
  | e :: l => (e = 'e' || e = 'E') &&
    let digits := match l with
      | s :: digits => if s = '+' ∨ s = '-' then digits else l
      | [] => []
    !digits.isEmpty && digits.all isDigit

def validFraction : List Char → Bool
  | '.' :: l => !(l.takeWhile isDigit).isEmpty && validExponent (l.dropWhile isDigit)
  | l => validExponent l

def validUnsigned : List Char → Bool
  | [] => false
  | d :: l => if d = '0' then validFraction l else isDigit d && validFraction (l.dropWhile isDigit)

/-- The grammar of numbers. -/
def validNumber : List Char → Bool
  | '-' :: l => validUnsigned l
  | l => validUnsigned l

mutual

/-- One value and what follows it. -/
def readValue : ℕ → List Char → Option (Value × List Char)
  | 0, _ => none
  | n + 1, l =>
    match skip l with
    | 'n' :: 'u' :: 'l' :: 'l' :: l => some (.null, l)
    | 't' :: 'r' :: 'u' :: 'e' :: l => some (.bool true, l)
    | 'f' :: 'a' :: 'l' :: 's' :: 'e' :: l => some (.bool false, l)
    | '\x22' :: l => (readString none l).map fun r => (.string (String.ofList r.1), r.2)
    | '[' :: l =>
      match skip l with
      | ']' :: l => some (.array [], l)
      | l =>
        match readValue n l with
        | some (item, l) => (readItems n l).map fun r => (.array (item :: r.1), r.2)
        | none => none
    | '\x7b' :: l =>
      match skip l with
      | '\x7d' :: l => some (.object [], l)
      | l =>
        match readMember n l with
        | some (member, l) => (readMembers n l).map fun r => (.object (member :: r.1), r.2)
        | none => none
    | l =>
      if validNumber (l.takeWhile numberChar) then some (.number (l.takeWhile numberChar), l.dropWhile numberChar)
      else none

/-- The items that follow the first one. -/
def readItems : ℕ → List Char → Option (List Value × List Char)
  | 0, _ => none
  | n + 1, l =>
    match skip l with
    | ']' :: l => some ([], l)
    | ',' :: l =>
      match readValue n l with
      | some (item, l) => (readItems n l).map fun r => (item :: r.1, r.2)
      | none => none
    | _ => none

/-- One member of an object. -/
def readMember : ℕ → List Char → Option ((String × Value) × List Char)
  | 0, _ => none
  | n + 1, l =>
    match skip l with
    | '\x22' :: l =>
      match readString none l with
      | some (name, l) =>
        match skip l with
        | ':' :: l => (readValue n l).map fun r => ((String.ofList name, r.1), r.2)
        | _ => none
      | none => none
    | _ => none

/-- The members that follow the first one. -/
def readMembers : ℕ → List Char → Option (List (String × Value) × List Char)
  | 0, _ => none
  | n + 1, l =>
    match skip l with
    | '\x7d' :: l => some ([], l)
    | ',' :: l =>
      match readMember n l with
      | some (member, l) => (readMembers n l).map fun r => (member :: r.1, r.2)
      | none => none
    | _ => none

end

/-- A text that holds exactly one value. -/
def parse (l : List Char) : Option Value :=
  match readValue (l.length + 1) l with
  | some (value, rest) => if skip rest = [] then some value else none
  | none => none

/-! ## Strings -/

section

variable {html : Bool} {c : Char} {l rest : List Char} {n : ℕ}

theorem hexValue_hexDigit : ∀ n < 16, hexValue (hexDigit n) = some n := by decide

theorem hexQuad_hex4 (h : n < 65536) : ∃ a b c d, hex4 n = [a, b, c, d] ∧ hexQuad a b c d = some n := by
  refine ⟨_, _, _, _, rfl, ?_⟩
  simp only [hexQuad, hexValue_hexDigit _ (Nat.mod_lt _ (by decide : 0 < 16)), Option.bind_eq_bind, Option.bind_some,
    Option.pure_def, Option.some.injEq]
  omega

/-- A character that is written as its number. -/
theorem readString_hex4 (h : c.toNat < 55296) :
    readString none ('\\' :: 'u' :: (hex4 c.toNat ++ l)) = (readString none l).map fun r => (c :: r.1, r.2) := by
  obtain ⟨x₁, x₂, x₃, x₄, hquad, hvalue⟩ := hexQuad_hex4 (n := c.toNat) (by omega)
  rw [hquad]
  simp only [List.cons_append, List.nil_append, readString, hvalue]
  rw [if_neg (by omega), if_neg (by omega), Char.ofNat_toNat]
  simp [flush]

theorem readString_plain (hquote : c ≠ '\x22') (hslash : c ≠ '\\') (hcontrol : ¬c.toNat < 32) :
    readString none (c :: l) = (readString none l).map fun r => (c :: r.1, r.2) := by
  rw [readString]
  · rw [if_neg hquote, if_neg (by simp [hcontrol, hslash])]
    simp [flush]
  · rintro a b c d l' rfl -
    exact hslash rfl
  · rintro c' l' rfl -
    exact hslash rfl

theorem readString_escape :
    readString none (escape html c ++ l) = (readString none l).map fun r => (c :: r.1, r.2) := by
  unfold escape
  split_ifs with hquote hslash hb hf hn hr ht hcode
  · subst hquote; rfl
  · subst hslash; rfl
  · subst hb; rfl
  · subst hf; rfl
  · subst hn; rfl
  · subst hr; rfl
  · subst ht; rfl
  · refine readString_hex4 ?_
    rcases hcode with h | ⟨-, rfl | rfl | rfl⟩ | h | h
    · omega
    · decide
    · decide
    · decide
    · omega
    · omega
  · rw [not_or] at hcode
    exact readString_plain hquote hslash hcode.1

theorem readString_quote (text : List Char) :
    readString none (text.flatMap (escape html) ++ '\x22' :: rest) = some (text, rest) := by
  induction text with
  | nil => simp [readString, flush]
  | cons c text ih =>
    rw [List.flatMap_cons, List.append_assoc, readString_escape, ih]
    rfl

end

/-! ## Numbers -/

theorem numberChar_of_isDigit {c : Char} (h : isDigit c) : numberChar c := by simp [numberChar, h]

variable {l : List Char}

theorem validExponent_numberChar (h : validExponent l) : ∀ c ∈ l, numberChar c := by
  cases l with
  | nil => exact nofun
  | cons e l =>
    simp only [validExponent, Bool.and_eq_true, Bool.or_eq_true, decide_eq_true_eq] at h
    obtain ⟨he, -, hdigits⟩ := h
    intro c hc
    rcases List.mem_cons.1 hc with rfl | hc
    · rcases he with rfl | rfl <;> decide
    · cases l with
      | nil => cases hc
      | cons s l =>
        dsimp only at hdigits
        split at hdigits
        · rename_i hsign
          rcases List.mem_cons.1 hc with rfl | hc
          · rcases hsign with rfl | rfl <;> decide
          · exact numberChar_of_isDigit (List.all_eq_true.1 hdigits c hc)
        · exact numberChar_of_isDigit (List.all_eq_true.1 hdigits c hc)

/-- A run of digits, and what follows it. -/
theorem numberChar_digits (h : ∀ c ∈ l.dropWhile isDigit, numberChar c) : ∀ c ∈ l, numberChar c := by
  intro c hc
  rw [← List.takeWhile_append_dropWhile (p := isDigit) (l := l)] at hc
  rcases List.mem_append.1 hc with hc | hc
  · exact numberChar_of_isDigit (List.mem_takeWhile_imp hc)
  · exact h c hc

theorem validFraction_numberChar (h : validFraction l) : ∀ c ∈ l, numberChar c := by
  unfold validFraction at h
  split at h
  · rw [Bool.and_eq_true] at h
    intro c hc
    rcases List.mem_cons.1 hc with rfl | hc
    · decide
    · exact numberChar_digits (validExponent_numberChar h.2) c hc
  · exact validExponent_numberChar h

/-- A number starts with a digit. -/
theorem validUnsigned_cons (h : validUnsigned l) : ∃ d l', l = d :: l' ∧ isDigit d ∧ ∀ c ∈ l', numberChar c := by
  cases l with
  | nil => cases h
  | cons d l =>
    simp only [validUnsigned] at h
    split at h
    · rename_i hzero
      exact ⟨d, l, rfl, hzero ▸ rfl, validFraction_numberChar h⟩
    · rw [Bool.and_eq_true] at h
      exact ⟨d, l, rfl, h.1, numberChar_digits (validFraction_numberChar h.2)⟩

/-- A number starts with a digit or a sign. -/
theorem validNumber_cons (h : validNumber l) :
    ∃ d l', l = d :: l' ∧ (isDigit d ∨ d = '-') ∧ ∀ c ∈ l, numberChar c := by
  unfold validNumber at h
  split at h
  · obtain ⟨d, l', rfl, hd, hall⟩ := validUnsigned_cons h
    refine ⟨_, _, rfl, .inr rfl, fun c hc => ?_⟩
    simp only [List.mem_cons] at hc
    rcases hc with rfl | rfl | hc
    · decide
    · exact numberChar_of_isDigit hd
    · exact hall c hc
  · obtain ⟨d, l', rfl, hd, hall⟩ := validUnsigned_cons h
    refine ⟨_, _, rfl, .inl hd, fun c hc => ?_⟩
    rcases List.mem_cons.1 hc with rfl | hc
    · exact numberChar_of_isDigit hd
    · exact hall c hc

/-! ## Reading what was written -/

mutual

/-- The numbers of the value are numbers. -/
def Value.WellFormed : Value → Prop
  | .number text => validNumber text
  | .array items => itemsWellFormed items
  | .object members => membersWellFormed members
  | _ => True

def itemsWellFormed : List Value → Prop
  | [] => True
  | item :: items => item.WellFormed ∧ itemsWellFormed items

def membersWellFormed : List (String × Value) → Prop
  | [] => True
  | (_, value) :: members => value.WellFormed ∧ membersWellFormed members

end

/-- The text does not go on with a number. -/
def Ends (l : List Char) : Prop := ∀ c ∈ l.head?, numberChar c = false

/-- The characters a value can start with. -/
def Starts (c : Char) : Prop := isSpace c = false ∧ c ≠ ']' ∧ c ≠ '\x7d'

section

variable {html : Bool} {v : Value} {l rest : List Char} {n : ℕ}

theorem starts_of_number {d : Char} (h : isDigit d ∨ d = '-') :
    Starts d ∧ d ≠ 'n' ∧ d ≠ 't' ∧ d ≠ 'f' ∧ d ≠ '\x22' ∧ d ≠ '[' ∧ d ≠ '\x7b' := by
  have hne : ∀ c, (isDigit c || c = '-') = false → d ≠ c := by
    rintro c hc rfl
    rcases h with h | h <;> simp [h] at hc
  refine ⟨⟨?_, hne _ rfl, hne _ rfl⟩, hne _ rfl, hne _ rfl, hne _ rfl, hne _ rfl, hne _ rfl, hne _ rfl⟩
  simp only [isSpace, Bool.or_eq_false_iff, decide_eq_false_iff_not]
  exact ⟨⟨⟨hne _ rfl, hne _ rfl⟩, hne _ rfl⟩, hne _ rfl⟩

theorem write_cons (html : Bool) (h : v.WellFormed) : ∃ c l, write html v = c :: l ∧ Starts c := by
  cases v with
  | null => exact ⟨_, _, by rw [write], by decide, by decide, by decide⟩
  | bool b => cases b <;> exact ⟨_, _, by rw [write], by decide, by decide, by decide⟩
  | number text =>
    obtain ⟨d, l, rfl, hd, -⟩ := validNumber_cons (by simpa [Value.WellFormed] using h)
    exact ⟨d, l, by rw [write], (starts_of_number hd).1⟩
  | string text => exact ⟨_, _, by rw [write, quote], by decide, by decide, by decide⟩
  | array items => cases items <;> exact ⟨_, _, by rw [write], by decide, by decide, by decide⟩
  | object members =>
    cases members with
    | nil => exact ⟨_, _, by rw [write], by decide, by decide, by decide⟩
    | cons member members =>
      obtain ⟨name, value⟩ := member
      exact ⟨_, _, by rw [write], by decide, by decide, by decide⟩

theorem skip_cons {c : Char} (h : isSpace c = false) : skip (c :: l) = c :: l := by
  simp [skip, h]

theorem readValue_number {text : List Char} (h : validNumber text) (hrest : Ends rest) :
    readValue (n + 1) (text ++ rest) = some (.number text, rest) := by
  obtain ⟨d, l, heq, hd, hall⟩ := validNumber_cons h
  obtain ⟨⟨hspace, -⟩, hn, ht, hf, hquote, hopen, hbrace⟩ := starts_of_number hd
  have hstop : rest.takeWhile numberChar = [] ∧ rest.dropWhile numberChar = rest := by
    cases rest with
    | nil => simp
    | cons c rest => simp [hrest c rfl]
  have htake : (text ++ rest).takeWhile numberChar = text := by
    rw [List.takeWhile_append_of_pos hall, hstop.1, List.append_nil]
  have hdrop : (text ++ rest).dropWhile numberChar = rest := by
    rw [List.dropWhile_append_of_pos hall, hstop.2]
  have hskip : skip (text ++ rest) = text ++ rest := by
    rw [heq, List.cons_append, skip_cons hspace]
  have hhead : ∀ {c : Char} {l' : List Char}, text ++ rest = c :: l' → d = c := by
    intro c l' h'
    rw [heq, List.cons_append] at h'
    exact (List.cons.inj h').1
  rw [readValue, hskip]
  split
  · exact absurd (hhead ‹_›) hn
  · exact absurd (hhead ‹_›) ht
  · exact absurd (hhead ‹_›) hf
  · exact absurd (hhead ‹_›) hquote
  · exact absurd (hhead ‹_›) hopen
  · exact absurd (hhead ‹_›) hbrace
  · rw [htake, if_pos h, hdrop]

theorem ends_writeItems (items : List Value) : Ends (writeItems html items ++ rest) := by
  cases items <;> · rw [writeItems]; rintro _ ⟨⟩; rfl

theorem ends_writeMembers (members : List (String × Value)) : Ends (writeMembers html members ++ rest) := by
  cases members <;> · rw [writeMembers]; rintro _ ⟨⟩; rfl

theorem readValue_string : readValue (n + 1) ('\x22' :: l) =
    (readString none l).map fun r => (.string (String.ofList r.1), r.2) := rfl

theorem readValue_array {c : Char} (hc : Starts c) : readValue (n + 1) ('[' :: c :: l) =
    match readValue n (c :: l) with
    | some (item, l) => (readItems n l).map fun r => (.array (item :: r.1), r.2)
    | none => none := by
  have hopen : readValue (n + 1) ('[' :: c :: l) = match skip (c :: l) with
      | ']' :: l => some (.array [], l)
      | l =>
        match readValue n l with
        | some (item, l) => (readItems n l).map fun r => (.array (item :: r.1), r.2)
        | none => none := rfl
  rw [hopen, skip_cons hc.1]
  split
  · rename_i heq
    exact absurd (List.cons.inj heq).1 hc.2.1
  · rfl

theorem readValue_object : readValue (n + 1) ('\x7b' :: '\x22' :: l) =
    match readMember n ('\x22' :: l) with
    | some (member, l) => (readMembers n l).map fun r => (.object (member :: r.1), r.2)
    | none => none := rfl

theorem readItems_comma : readItems (n + 1) (',' :: l) =
    match readValue n l with
    | some (item, l) => (readItems n l).map fun r => (item :: r.1, r.2)
    | none => none := rfl

theorem readMembers_comma : readMembers (n + 1) (',' :: l) =
    match readMember n l with
    | some (member, l) => (readMembers n l).map fun r => (member :: r.1, r.2)
    | none => none := rfl

theorem readMember_string : readMember (n + 1) ('\x22' :: l) =
    match readString none l with
    | some (name, l) =>
      match skip l with
      | ':' :: l => (readValue n l).map fun r => ((String.ofList name, r.1), r.2)
      | _ => none
    | none => none := rfl

theorem readMember_write {name : String} (hvalue : readValue n l = some (v, rest)) :
    readMember (n + 1) (quote html name ++ ':' :: l) = some ((name, v), rest) := by
  have hcolon : ∀ (text : List Char), (match skip (':' :: l) with
      | ':' :: l => (readValue n l).map fun r => ((String.ofList text, r.1), r.2)
      | _ => none) = (readValue n l).map fun r => ((String.ofList text, r.1), r.2) := fun _ => rfl
  rw [quote, List.cons_append, List.append_assoc, List.singleton_append, readMember_string, readString_quote]
  dsimp only
  rw [hcolon, hvalue, Option.map_some, String.ofList_toList]

mutual

theorem readValue_write : ∀ (v : Value) (n : ℕ) (rest : List Char), v.WellFormed → (write html v).length ≤ n →
    Ends rest → readValue n (write html v ++ rest) = some (v, rest)
  | v, 0, rest, h, hn, _ => by
    obtain ⟨c, l, hwrite, -⟩ := write_cons html h
    rw [hwrite] at hn
    cases hn
  | .null, n + 1, rest, _, _, _ => by
    rw [write]
    rfl
  | .bool true, n + 1, rest, _, _, _ => by
    rw [write]
    rfl
  | .bool false, n + 1, rest, _, _, _ => by
    rw [write]
    rfl
  | .number text, n + 1, rest, h, _, hrest => by
    rw [write]
    exact readValue_number (by simpa [Value.WellFormed] using h) hrest
  | .string text, n + 1, rest, _, _, _ => by
    rw [write, quote, List.cons_append, List.append_assoc, List.singleton_append, readValue_string, readString_quote,
      Option.map_some, String.ofList_toList]
  | .array [], n + 1, rest, _, _, _ => by
    rw [write]
    rfl
  | .array (item :: items), n + 1, rest, h, hn, _ => by
    simp only [Value.WellFormed, itemsWellFormed] at h
    simp only [write, List.length_cons, List.length_append] at hn
    have hitem := readValue_write item n (writeItems html items ++ rest) h.1 (by omega) (ends_writeItems items)
    have hitems := readItems_write items n rest h.2 (by omega)
    obtain ⟨c, l, hwrite, hc⟩ := write_cons html h.1
    rw [write, List.cons_append, List.append_assoc]
    rw [hwrite, List.cons_append] at hitem ⊢
    rw [readValue_array hc, hitem]
    dsimp only
    rw [hitems, Option.map_some]
  | .object [], n + 1, rest, _, _, _ => by
    rw [write]
    rfl
  | .object ((name, value) :: members), n + 1, rest, h, hn, _ => by
    simp only [Value.WellFormed, membersWellFormed] at h
    simp only [write, quote, List.length_cons, List.length_append] at hn
    obtain ⟨k, rfl⟩ : ∃ k, n = k + 1 := ⟨n - 1, by omega⟩
    have hvalue := readValue_write value k (writeMembers html members ++ rest) h.1 (by omega)
      (ends_writeMembers members)
    have hmembers := readMembers_write members (k + 1) rest h.2 (by omega)
    have hmember : readMember (k + 1) (quote html name ++ ':' :: (write html value ++ (writeMembers html members ++ rest))) =
        some ((name, value), writeMembers html members ++ rest) := readMember_write hvalue
    rw [write, List.cons_append, List.append_assoc, List.cons_append, List.append_assoc]
    rw [quote, List.cons_append] at hmember ⊢
    rw [readValue_object, hmember]
    dsimp only
    rw [hmembers, Option.map_some]

theorem readItems_write : ∀ (items : List Value) (n : ℕ) (rest : List Char), itemsWellFormed items →
    (writeItems html items).length ≤ n → readItems n (writeItems html items ++ rest) = some (items, rest)
  | items, 0, rest, _, hn => by
    cases items <;> simp [writeItems] at hn
  | [], n + 1, rest, _, _ => by
    rw [writeItems]
    rfl
  | item :: items, n + 1, rest, h, hn => by
    simp only [itemsWellFormed] at h
    simp only [writeItems, List.length_cons, List.length_append] at hn
    have hitem := readValue_write item n (writeItems html items ++ rest) h.1 (by omega) (ends_writeItems items)
    have hitems := readItems_write items n rest h.2 (by omega)
    rw [writeItems, List.cons_append, List.append_assoc, readItems_comma, hitem]
    dsimp only
    rw [hitems, Option.map_some]

theorem readMembers_write : ∀ (members : List (String × Value)) (n : ℕ) (rest : List Char), membersWellFormed members →
    (writeMembers html members).length ≤ n → readMembers n (writeMembers html members ++ rest) = some (members, rest)
  | members, 0, rest, _, hn => by
    cases members with
    | nil => simp [writeMembers] at hn
    | cons member members => obtain ⟨name, value⟩ := member; simp [writeMembers] at hn
  | [], n + 1, rest, _, _ => by
    rw [writeMembers]
    rfl
  | (name, value) :: members, n + 1, rest, h, hn => by
    simp only [membersWellFormed] at h
    simp only [writeMembers, quote, List.length_cons, List.length_append] at hn
    obtain ⟨k, rfl⟩ : ∃ k, n = k + 1 := ⟨n - 1, by omega⟩
    have hvalue := readValue_write value k (writeMembers html members ++ rest) h.1 (by omega)
      (ends_writeMembers members)
    have hmembers := readMembers_write members (k + 1) rest h.2 (by omega)
    rw [writeMembers, List.cons_append, List.append_assoc, List.cons_append, List.append_assoc, readMembers_comma,
      readMember_write hvalue]
    dsimp only
    rw [hmembers, Option.map_some]

end

/-- **What was written is read back.** -/
theorem parse_write (h : v.WellFormed) : parse (write html v) = some v := by
  have hread : readValue ((write html v).length + 1) (write html v ++ []) = some (v, []) :=
    readValue_write v _ [] h (by omega) (by rintro _ ⟨⟩)
  rw [List.append_nil] at hread
  unfold parse
  rw [hread]
  rfl

/-- A text may end with a newline. -/
theorem parse_write_line (h : v.WellFormed) : parse (write html v ++ ['\n']) = some v := by
  have hread : readValue ((write html v ++ ['\n']).length + 1) (write html v ++ ['\n']) = some (v, ['\n']) :=
    readValue_write v _ ['\n'] h (by simp only [List.length_append]; omega) (by rintro _ ⟨⟩; decide)
  unfold parse
  rw [hread]
  rfl

end

end Json
