import Punaro.Proof.EventText

/-!
# Escapes of code points in JSON

A text of JSON is read by the grammar of RFC 8259, which also says what its string
literals are and what each of them is made of. The scan that runs before the decoder
knows nothing of that grammar; it tells the same texts apart as the grammar does.
-/

namespace Punaro.Canopi

open Json

/-- A piece of a string literal: a character, the escape of one, or the escape of a code point. -/
inductive Piece where
  | plain (c : Char)
  | escape (c : Char)
  | unicode (a b c d : Char)

namespace Piece

def text : Piece → List Char
  | .plain c => [c]
  | .escape c => ['\\', c]
  | .unicode a b c d => ['\\', 'u', a, b, c, d]

def Valid : Piece → Prop
  | .plain c => c ≠ '\x22' ∧ c ≠ '\\' ∧ 32 ≤ c.toNat
  | .escape c => (unescape c).isSome
  | .unicode a b c d => (hexQuad a b c d).isSome

/-- The code point of an escape. -/
def code : Piece → Option ℕ
  | .unicode a b c d => hexQuad a b c d
  | _ => none

/-- The first half of a surrogate pair. -/
def high (p : Piece) : Bool := p.code.any fun n => 55296 ≤ n ∧ n ≤ 56319

/-- The second half of a surrogate pair. -/
def low (p : Piece) : Bool := p.code.any fun n => 56320 ≤ n ∧ n ≤ 57343

end Piece

/-- A string literal. -/
def quoted (pieces : List Piece) : List Char := '\x22' :: (pieces.flatMap Piece.text ++ ['\x22'])

inductive Symbol where
  | value
  | string
  | items
  | members

/-- The grammar: how a text begins with a symbol, the string literals of the symbol, and what is left of the text. -/
inductive Derives : Symbol → List Char → List (List Piece) → List Char → Prop where
  | before : isSpace c → Derives symbol l literals rest → Derives symbol (c :: l) literals rest
  | after : Derives symbol l literals (c :: rest) → isSpace c → Derives symbol l literals rest
  | word : w ∈ ["null", "true", "false"] → Derives .value (w.toList ++ rest) [] rest
  | number : validNumber text → Derives .value (text ++ rest) [] rest
  | literal : (∀ p ∈ pieces, p.Valid) → Derives .string (quoted pieces ++ rest) [pieces] rest
  | string : Derives .string l literals rest → Derives .value l literals rest
  | emptyArray : (∀ c ∈ spaces, isSpace c) → Derives .value ('[' :: (spaces ++ ']' :: rest)) [] rest
  | array : Derives .items l literals (']' :: rest) → Derives .value ('[' :: l) literals rest
  | item : Derives .value l literals rest → Derives .items l literals rest
  | emptyObject : (∀ c ∈ spaces, isSpace c) → Derives .value ('\x7b' :: (spaces ++ '\x7d' :: rest)) [] rest
  | object : Derives .members l literals ('\x7d' :: rest) → Derives .value ('\x7b' :: l) literals rest
  | member : Derives .string l names (':' :: l') → Derives .value l' literals rest →
    Derives .members l (names ++ literals) rest
  | next : symbol ∈ [.items, .members] → Derives symbol l literals (',' :: l') → Derives symbol l' literals' rest →
    Derives symbol l (literals ++ literals') rest

/-- Each escape of a code point that comes after `before` is of a character, or half of a pair of surrogates that stand
side by side. -/
def Paired (before pieces : List Piece) : Prop :=
  ∀ l p l', pieces = l ++ p :: l' → (p.high → l'.head?.any Piece.low) ∧ (p.low → (before ++ l).getLast?.any Piece.high)

section

variable {p : Piece} {pieces : List Piece} {l rest : List Char}

theorem paired_cons {before : List Piece} :
    Paired before (p :: pieces) ↔ ((p.high → pieces.head?.any Piece.low) ∧ (p.low → before.getLast?.any Piece.high)) ∧
      Paired (before ++ [p]) pieces := by
  constructor
  · intro h
    refine ⟨by simpa using h [] p pieces rfl, fun l q l' heq => ?_⟩
    simpa using h (p :: l) q l' (by rw [heq, List.cons_append])
  · rintro ⟨hp, h⟩ (_ | ⟨q, l⟩) r l' heq
    · cases heq
      simpa using hp
    · rw [List.cons_append, List.cons.injEq] at heq
      obtain ⟨rfl, heq⟩ := heq
      simpa using h l r l' heq

/-- The scan of one piece, after a first half of a pair or not. -/
theorem scan_piece (h : p.Valid) :
    validJSONUnicodeEscapes .inside (p.text ++ l) =
      (if p.high then validJSONUnicodeEscapes .paired l else !p.low && validJSONUnicodeEscapes .inside l) ∧
    validJSONUnicodeEscapes .paired (p.text ++ l) = (p.low && validJSONUnicodeEscapes .inside l) := by
  cases p with
  | plain c =>
    obtain ⟨hquote, hslash, -⟩ := h
    constructor
    · rw [Piece.text, List.singleton_append, validJSONUnicodeEscapes, if_neg hquote]
      · rfl
      · exact fun _ _ _ _ _ h => absurd h hslash
      · exact fun _ _ h => absurd h hslash
    · rw [Piece.text, List.singleton_append, validJSONUnicodeEscapes]
      · rfl
      · rintro _ _ _ _ _ ⟨⟩
        exact hslash rfl
  | escape c =>
    have hc : c ≠ 'u' := by
      rintro rfl
      cases h
    constructor
    · rw [Piece.text, List.cons_append, List.singleton_append, validJSONUnicodeEscapes, if_neg hc]
      · rfl
      · exact fun _ _ _ _ _ h => absurd h hc
    · rw [Piece.text, List.cons_append, List.singleton_append, validJSONUnicodeEscapes]
      · rfl
      · rintro _ _ _ _ _ ⟨⟩
        exact hc rfl
  | unicode =>
    obtain ⟨n, hn⟩ := Option.isSome_iff_exists.1 h
    simp only [Piece.text, Piece.high, Piece.low, Piece.code, List.cons_append, List.nil_append, validJSONUnicodeEscapes,
      hn, Option.any_some, decide_eq_true_eq]
    refine ⟨?_, by rw [Bool.decide_and]⟩
    by_cases hlow : 56320 ≤ n ∧ n ≤ 57343 <;> simp [hlow]

/-- The scan inside a literal, after a first half of a pair or not. -/
theorem scan_pieces (before : List Piece) (hvalid : ∀ p ∈ pieces, p.Valid) :
    (before.getLast?.any Piece.high = false →
      (validJSONUnicodeEscapes .inside (pieces.flatMap Piece.text ++ '\x22' :: rest) ↔
        Paired before pieces ∧ validJSONUnicodeEscapes .outside rest)) ∧
    (before.getLast?.any Piece.high = true →
      (validJSONUnicodeEscapes .paired (pieces.flatMap Piece.text ++ '\x22' :: rest) ↔
        pieces.head?.any Piece.low ∧ Paired before pieces ∧ validJSONUnicodeEscapes .outside rest)) := by
  induction pieces generalizing before with
  | nil =>
    have hnil : Paired before [] := fun l p l' h => by cases l <;> cases h
    exact ⟨fun _ => by simp [validJSONUnicodeEscapes, hnil], fun _ => by simp [validJSONUnicodeEscapes]⟩
  | cons p pieces ih =>
    obtain ⟨hp, hrest⟩ := List.forall_mem_cons.1 hvalid
    obtain ⟨hinside, hpaired⟩ := ih (before ++ [p]) hrest
    rw [List.getLast?_concat, Option.any_some] at hinside hpaired
    obtain ⟨hfirst, hsecond⟩ := scan_piece (l := pieces.flatMap Piece.text ++ '\x22' :: rest) hp
    rw [List.flatMap_cons, List.append_assoc, hfirst, hsecond, paired_cons]
    have hexclusive : p.high → p.low = false := by
      simp only [Piece.high, Piece.low, Option.any_eq_true, Option.any_eq_false]
      rintro ⟨n, hn, hhigh⟩ m hm
      grind
    cases hhigh : p.high with
    | true => simp_all [and_assoc]
    | false => cases hlow : p.low <;> simp_all

theorem scan_quoted (hvalid : ∀ p ∈ pieces, p.Valid) :
    validJSONUnicodeEscapes .outside (quoted pieces ++ rest) ↔
      Paired [] pieces ∧ validJSONUnicodeEscapes .outside rest := by
  rw [quoted, List.cons_append, List.append_assoc, List.singleton_append, validJSONUnicodeEscapes, if_pos rfl]
  exact (scan_pieces [] hvalid).1 rfl

end

theorem ne_quote_of_isSpace {c : Char} (h : isSpace c) : c ≠ '\x22' := by
  rintro rfl
  cases h

/-- The scan of a symbol. -/
theorem Derives.scan {symbol : Symbol} {l rest : List Char} {literals : List (List Piece)}
    (h : Derives symbol l literals rest) :
    validJSONUnicodeEscapes .outside l ↔
      (∀ pieces ∈ literals, Paired [] pieces) ∧ validJSONUnicodeEscapes .outside rest := by
  induction h with
  | before hspace _ ih => rw [validEscapes_outside (ne_quote_of_isSpace hspace), ih]
  | after _ hspace ih => rw [ih, validEscapes_outside (ne_quote_of_isSpace hspace)]
  | word hw =>
    simp only [List.mem_cons, List.not_mem_nil, or_false] at hw
    rcases hw with rfl | rfl | rfl
    all_goals
      rw [validEscapes_plain (by simp)]
      simp
  | number hnumber => simp [validEscapes_number hnumber]
  | literal hvalid => simp [scan_quoted hvalid]
  | string _ ih | item _ ih => exact ih
  | emptyArray hspaces | emptyObject hspaces =>
    rw [validEscapes_outside (by decide), validEscapes_plain fun c hc => ne_quote_of_isSpace (hspaces c hc),
      validEscapes_outside (by decide)]
    simp
  | array _ ih | object _ ih => rw [validEscapes_outside (by decide), ih, validEscapes_outside (by decide)]
  | member _ _ ih ih' | next _ _ _ ih ih' =>
    rw [ih, validEscapes_outside (by decide), ih', List.forall_mem_append, and_assoc]

/-- **The scan of escapes is exact**: a text of JSON passes it iff in every string literal each escape of a code point
is of a character or half of an adjacent pair of surrogates. -/
theorem validJSONUnicodeEscapes_exact {text : List Char} {literals : List (List Piece)}
    (h : Derives .value text literals []) :
    validJSONUnicodeEscapes .outside text ↔ ∀ pieces ∈ literals, Paired [] pieces := by
  rw [h.scan]
  simp [validJSONUnicodeEscapes]

/-- An escaped backslash before `u`, and a pair of surrogates. -/
def smiling : List Piece := [.escape '\\', .plain 'u', .unicode 'd' '8' '3' 'd', .unicode 'D' 'E' '0' '0']

theorem smiling_valid : ∀ p ∈ smiling, p.Valid := by simp [smiling, Piece.Valid, unescape, hexQuad, hexValue]

theorem validJSONUnicodeEscapes_exact_smiling :
    validJSONUnicodeEscapes .outside "[\"\\\\u\\ud83d\\uDE00\"]".toList ↔ ∀ pieces ∈ [smiling], Paired [] pieces :=
  validJSONUnicodeEscapes_exact (.array (.item (.string (.literal smiling_valid))))

end Punaro.Canopi
