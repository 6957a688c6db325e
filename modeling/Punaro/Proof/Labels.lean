import Mathlib
import Punaro.Relay.Text

/-!
# Room labels

`SanitizeConversationDisplayName` trims a label and then cuts it to 128 characters.
A character has at most four bytes, so the cut to 512 bytes that follows takes
nothing away (`clampBytes_eq_self`). Cutting can end the label in a space that was
inside of it, which a second call trims. Where the character at the cut is not a
space, a label that has been sanitized stays as it is.
-/

namespace Punaro

/-- The text neither starts nor ends with a space. -/
structure Trimmed (l : List Char) : Prop where
  first : ∀ c ∈ l.head?, isSpace c = false
  last : ∀ c ∈ l.getLast?, isSpace c = false

/-- The label is cut, and the last character that stays is a space. -/
def CutAtSpace (value : String) : Prop :=
  maxConversationDisplayNameRunes < (trimSpace value).length ∧
    ((trimSpace value).toList[maxConversationDisplayNameRunes - 1]?).any isSpace

section

variable {value out : String} {l : List Char} {n : ℕ}

theorem trimSpace_toList (value : String) :
    (trimSpace value).toList = (value.toList.dropWhile isSpace).rdropWhile isSpace := by
  simp only [trimSpace, String.toList_ofList, List.rdropWhile]

theorem trimSpace_eq_self (h : Trimmed value.toList) : trimSpace value = value := by
  have hfirst : value.toList.dropWhile isSpace = value.toList := by
    refine List.dropWhile_eq_self_iff.2 fun hpos => ?_
    have hhead := h.first (value.toList[0]) (List.head?_eq_getElem? ▸ List.getElem?_eq_getElem hpos)
    simp [hhead]
  have hlast : value.toList.rdropWhile isSpace = value.toList := by
    refine List.rdropWhile_eq_self_iff.2 fun hne => ?_
    have hend := h.last (value.toList.getLast hne) (List.getLast?_eq_getLast_of_ne_nil hne)
    simp [hend]
  apply String.toList_injective
  rw [trimSpace_toList, hfirst, hlast]

theorem trimmed_trimSpace (value : String) : Trimmed (trimSpace value).toList := by
  rw [trimSpace_toList]
  have hsub := List.rdropWhile_prefix isSpace (value.toList.dropWhile isSpace)
  constructor
  · intro c hc
    -- The first character is the one at which dropping from the left has stopped.
    have hhead : (value.toList.dropWhile isSpace).head? = some c := by
      obtain ⟨rest, hrest⟩ := hsub
      rw [← hrest, List.head?_append, hc, Option.some_or]
    have hnot := List.head?_dropWhile_not isSpace value.toList
    rw [hhead] at hnot
    exact hnot
  · intro c hc
    obtain ⟨hne, rfl⟩ := List.mem_getLast?_eq_getLast hc
    exact Bool.eq_false_iff.2 (List.rdropWhile_last_not isSpace _ hne)

/-- A trimmed text that is cut after a character that is not a space is trimmed. -/
theorem Trimmed.take (h : Trimmed l) (hn : n ≠ 0) (hcut : n < l.length → (l[n - 1]?).any isSpace = false) :
    Trimmed (l.take n) := by
  by_cases hlt : n < l.length
  · have hat : l[n - 1]? = some l[n - 1] := List.getElem?_eq_getElem (by omega)
    have hspace := hcut hlt
    rw [hat, Option.any_some] at hspace
    constructor
    · intro c hc
      rw [List.head?_take, if_neg hn] at hc
      exact h.first c hc
    · intro c hc
      rw [List.getLast?_take, if_neg hn, hat, Option.some_or] at hc
      exact Option.some.inj hc ▸ hspace
  · rwa [List.take_of_length_le (by omega)]

theorem utf8Len_le (l : List Char) : String.utf8Len l ≤ 4 * l.length := by
  induction l with
  | nil => exact le_rfl
  | cons c cs ih =>
    have hchar := c.utf8Size_le_four
    rw [String.utf8Len_cons, List.length_cons]
    omega

/-- The cut to 512 bytes takes nothing away from 128 characters. -/
theorem clampBytes_eq_self (h : l.length ≤ maxConversationDisplayNameRunes) : clampBytes l = l := by
  cases l with
  | nil => rfl
  | cons c cs =>
    have hbytes := utf8Len_le (c :: cs).reverse
    rw [List.length_reverse] at hbytes
    unfold clampBytes
    rw [if_pos]
    rw [String.utf8ByteSize_ofList]
    unfold maxConversationDisplayNameRunes at h
    unfold maxConversationDisplayNameBytes
    omega

/-- A label is accepted if it is empty, or not only spaces and without control characters. -/
theorem sanitize_eq (hne : value ≠ "") : sanitizeConversationDisplayName value =
    if (∀ c ∈ value.toList, isControl c = false) ∧ trimSpace value ≠ "" then
      some (String.ofList ((trimSpace value).toList.take maxConversationDisplayNameRunes)) else none := by
  have hlength : ((trimSpace value).toList.take maxConversationDisplayNameRunes).reverse.length ≤
      maxConversationDisplayNameRunes := by
    rw [List.length_reverse]
    exact List.length_take_le _ _
  have hcontrol : (value.toList.any fun c => c.toNat == 0 || isControl c) = false ↔
      ∀ c ∈ value.toList, isControl c = false := by
    rw [List.any_eq_false]
    refine forall₂_congr fun c _ => ?_
    rw [Bool.not_eq_true, Bool.or_eq_false_iff, and_iff_right_iff_imp]
    intro hctl
    rw [beq_eq_false_iff_ne]
    intro hnul
    simp [isControl, hnul] at hctl
  unfold sanitizeConversationDisplayName
  rw [if_neg (by simpa using hne)]
  simp only [clampBytes_eq_self hlength, List.reverse_reverse]
  by_cases hchars : ∀ c ∈ value.toList, isControl c = false
  · have hany := hcontrol.2 hchars
    by_cases htrim : trimSpace value = ""
    · simp [hany, htrim]
    · -- The first character of the trimmed label stays.
      have hcut : String.ofList ((trimSpace value).toList.take maxConversationDisplayNameRunes) ≠ "" := by
        simpa [String.ofList_eq_empty_iff, maxConversationDisplayNameRunes] using htrim
      have hok : (∀ c ∈ value.toList, isControl c = false) ∧ trimSpace value ≠ "" := ⟨hchars, htrim⟩
      rw [hany, if_neg Bool.false_ne_true, if_neg (by simpa using htrim), if_neg (by simpa using hcut), if_pos hok]
  · rw [if_pos (Bool.not_eq_false _ ▸ fun hany => hchars (hcontrol.1 hany)), if_neg fun h => hchars h.1]

/-- A label that needs no trimming and no cutting stays as it is. -/
theorem sanitize_eq_self (hcontrol : ∀ c ∈ value.toList, isControl c = false) (htrimmed : Trimmed value.toList)
    (hlength : value.length ≤ maxConversationDisplayNameRunes) : sanitizeConversationDisplayName value = some value := by
  by_cases hne : value = ""
  · rw [hne]
    rfl
  have htake : value.toList.take maxConversationDisplayNameRunes = value.toList :=
    List.take_of_length_le (by rwa [String.length_toList])
  rw [sanitize_eq hne, trimSpace_eq_self htrimmed, if_pos ⟨hcontrol, hne⟩, htake, String.ofList_toList]

/-- What is left of a label with these characters. -/
theorem sanitize_ofList (hcontrol : l.any isControl = false)
    (htrim : (l.dropWhile isSpace).rdropWhile isSpace ≠ []) : sanitizeConversationDisplayName (String.ofList l) =
      some (String.ofList (((l.dropWhile isSpace).rdropWhile isSpace).take maxConversationDisplayNameRunes)) := by
  have hne : String.ofList l ≠ "" := by
    intro hempty
    rw [String.ofList_eq_empty_iff] at hempty
    rw [hempty] at htrim
    exact htrim rfl
  have hkept : trimSpace (String.ofList l) ≠ "" := by
    rwa [Ne, ← String.toList_inj, trimSpace_toList, String.toList_ofList]
  have hplain : ∀ c ∈ (String.ofList l).toList, isControl c = false := by
    rw [String.toList_ofList]
    simpa using List.any_eq_false.1 hcontrol
  rw [sanitize_eq hne, if_pos ⟨hplain, hkept⟩, trimSpace_toList, String.toList_ofList]

/-- A label of 129 characters, the 128th a space. -/
def spacedLabel : String := String.ofList (List.replicate 127 'a' ++ [' ', 'b'])

end

end Punaro
