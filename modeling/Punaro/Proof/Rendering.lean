import Punaro.Telegram.Bridge

/-!
# Rendered deliveries

`renderDelivery` cuts a body between two characters, whenever the next one would make the
message too long. Escaping goes character by character, so the text of a part is the
escaped text of its own segment, and one more character adds five bytes at most: a
segment of one character always fits, and a longer one was measured before it grew.
-/

namespace Punaro.Telegram

/-- What `html.EscapeString` writes for a character. -/
def escapeChar (c : Char) : String :=
  match c.toNat with
  | 34 => "&#34;"
  | 38 => "&amp;"
  | 39 => "&#39;"
  | 60 => "&lt;"
  | 62 => "&gt;"
  | _ => String.singleton c

/-- The reader's way back, for the entities `html.EscapeString` writes. -/
def unescape : List Char → List Char
  | '&' :: '#' :: '3' :: '4' :: ';' :: l => '\x22' :: unescape l
  | '&' :: 'a' :: 'm' :: 'p' :: ';' :: l => '&' :: unescape l
  | '&' :: '#' :: '3' :: '9' :: ';' :: l => '\x27' :: unescape l
  | '&' :: 'l' :: 't' :: ';' :: l => '<' :: unescape l
  | '&' :: 'g' :: 't' :: ';' :: l => '>' :: unescape l
  | c :: l => c :: unescape l
  | [] => []

/-- What comes before the text of every part. -/
def deliveryHeader (endpoint : String) : String :=
  "<p><b>Reply from </b><code>" ++ escapeString endpoint ++ "</code></p><pre>"

def deliveryFooter : String := "</pre>"

variable {header footer current : String} {c : Char}

theorem unescape_cons (hc : c ≠ '&') (l : List Char) : unescape (c :: l) = c :: unescape l := by
  conv_lhs => unfold unescape
  split <;> simp_all

theorem unescape_escapeChar (c : Char) (l : List Char) : unescape ((escapeChar c).toList ++ l) = c :: unescape l := by
  have hc : ∀ d : Char, c.toNat = d.toNat → c = d := fun d h => Char.toNat_inj.1 h
  unfold escapeChar
  split
  · rw [hc '\x22' ‹_›]
    rfl
  · rw [hc '&' ‹_›]
    rfl
  · rw [hc '\x27' ‹_›]
    rfl
  · rw [hc '<' ‹_›]
    rfl
  · rw [hc '>' ‹_›]
    rfl
  · rename_i hne _ _ _
    rw [String.toList_singleton, List.singleton_append]
    refine unescape_cons ?_ l
    rintro rfl
    exact hne rfl

/-- Escaping is undone exactly. -/
theorem unescape_escapeString (text : String) : unescape (escapeString text).toList = text.toList := by
  have hjoin : (escapeString text).toList = text.toList.flatMap fun c => (escapeChar c).toList := by
    rw [escapeString, String.toList_join, List.flatMap_map]
    rfl
  rw [hjoin]
  induction text.toList with
  | nil => rfl
  | cons c l ih => rw [List.flatMap_cons, unescape_escapeChar, ih]

theorem escapeString_push : escapeString (current.push c) = escapeString current ++ escapeChar c := by
  unfold escapeString
  rw [String.toList_push, List.map_append, String.join_append, List.map_singleton, String.join_cons, String.join_nil,
    String.append_empty]
  rfl

/-- A character is escaped in five bytes at most. -/
theorem escapeChar_size (c : Char) : (escapeChar c).utf8ByteSize ≤ 5 := by
  unfold escapeChar
  split
  · decide
  · decide
  · decide
  · decide
  · decide
  · have hsize := c.utf8Size_le_four
    rw [String.utf8ByteSize_singleton]
    omega

/-- The message around a segment fits. -/
def Fits (header footer segment : String) : Prop :=
  (header ++ escapeString segment ++ footer).utf8ByteSize ≤ maxRichMessageBytes

theorem fits_iff : Fits header footer current ↔
    header.utf8ByteSize + (escapeString current).utf8ByteSize + footer.utf8ByteSize ≤ maxRichMessageBytes := by
  rw [Fits, String.utf8ByteSize_append, String.utf8ByteSize_append]

/-- A segment starts with a character that fits by itself. -/
theorem fits_singleton (hroom : header.utf8ByteSize + footer.utf8ByteSize + 5 ≤ maxRichMessageBytes) (c : Char) :
    Fits header footer (String.singleton c) := by
  have hsize := escapeChar_size c
  have hescape : escapeString (String.singleton c) = escapeChar c := by
    rw [← String.push_empty, escapeString_push]
    rfl
  rw [fits_iff, hescape]
  omega

/-- The loop cuts what it still has to send into segments that fit. -/
theorem renderParts_eq (hroom : header.utf8ByteSize + footer.utf8ByteSize + 5 ≤ maxRichMessageBytes)
    (hcurrent : Fits header footer current) (body : List Char) :
    ∃ segments : List String,
      renderParts header footer body current = segments.map (fun segment => header ++ escapeString segment ++ footer) ∧
      segments.flatMap String.toList = current.toList ++ body ∧ ∀ segment ∈ segments, Fits header footer segment := by
  induction body generalizing current with
  | nil =>
    unfold renderParts
    split
    · rename_i hempty
      exact ⟨[], rfl, by rw [hempty]; rfl, nofun⟩
    · exact ⟨[current], rfl, by simp, by simpa using hcurrent⟩
  | cons c body ih =>
    unfold renderParts
    split
    · obtain ⟨segments, hparts, hbody, hfit⟩ := ih (fits_singleton hroom c)
      refine ⟨current :: segments, ?_, ?_, ?_⟩
      · rw [hparts, List.map_cons]
      · rw [List.flatMap_cons, hbody]
        simp
      · intro segment hsegment
        rcases List.mem_cons.1 hsegment with rfl | hsegment
        · exact hcurrent
        · exact hfit segment hsegment
    · rename_i hshort
      have hnext : Fits header footer (current.push c) := by
        by_cases hempty : current = ""
        · rw [hempty, String.push_empty]
          exact fits_singleton hroom c
        · rw [fits_iff]
          by_contra hlong
          exact hshort ⟨hempty, Nat.lt_of_not_le hlong⟩
      obtain ⟨segments, hparts, hbody, hfit⟩ := ih hnext
      refine ⟨segments, hparts, ?_, hfit⟩
      rw [hbody, String.toList_push, List.append_assoc, List.singleton_append]

/-- **Rendering is lossless and bounded.** If the header and the footer leave five bytes, every part fits and is the
header, an escaped text and the footer; and the texts, unescaped one by one, are the body. -/
theorem renderDelivery_lossless (endpoint body : String)
    (hroom : (deliveryHeader endpoint).utf8ByteSize + deliveryFooter.utf8ByteSize + 5 ≤ maxRichMessageBytes) :
    (∀ part ∈ renderDelivery endpoint body, part.utf8ByteSize ≤ maxRichMessageBytes) ∧
    ∃ texts : List String,
      renderDelivery endpoint body = texts.map (fun text => deliveryHeader endpoint ++ text ++ deliveryFooter) ∧
      (∀ text ∈ texts, ∃ segment, text = escapeString segment) ∧
      texts.flatMap (fun text => unescape text.toList) = body.toList := by
  have hnone : Fits (deliveryHeader endpoint) deliveryFooter "" := by
    have hempty : (escapeString "").utf8ByteSize = 0 := by decide
    rw [fits_iff]
    omega
  have hsegments : ∃ segments : List String, renderDelivery endpoint body = segments.map (fun segment =>
      deliveryHeader endpoint ++ escapeString segment ++ deliveryFooter) ∧
      segments.flatMap String.toList = body.toList ∧
      ∀ segment ∈ segments, Fits (deliveryHeader endpoint) deliveryFooter segment := by
    obtain ⟨segments, hparts, hbody, hfit⟩ := renderParts_eq hroom hnone body.toList
    change ∃ segments : List String, (if renderParts (deliveryHeader endpoint) deliveryFooter body.toList "" = [] then
      [deliveryHeader endpoint ++ deliveryFooter] else _) = _ ∧ _
    split
    · -- an empty body is sent as one empty text
      rename_i hempty
      rw [hparts, List.map_eq_nil_iff] at hempty
      rw [hempty] at hbody
      refine ⟨[""], ?_, ?_, by simpa using hnone⟩
      · have hescape : escapeString "" = "" := rfl
        simp [hescape]
      · simpa using hbody
    · exact ⟨segments, hparts, hbody, hfit⟩
  obtain ⟨segments, hparts, hbody, hfit⟩ := hsegments
  refine ⟨?_, segments.map escapeString, ?_, ?_, ?_⟩
  · intro part hpart
    rw [hparts] at hpart
    obtain ⟨segment, hsegment, rfl⟩ := List.mem_map.1 hpart
    exact hfit segment hsegment
  · rw [hparts, List.map_map]
    rfl
  · intro text htext
    obtain ⟨segment, -, rfl⟩ := List.mem_map.1 htext
    exact ⟨segment, rfl⟩
  · rw [List.flatMap_map, ← hbody]
    simp only [unescape_escapeString]

theorem renderDelivery_lossless_tag : ∃ texts : List String, renderDelivery "desk/a" "<b>" =
    texts.map (fun text => deliveryHeader "desk/a" ++ text ++ deliveryFooter) ∧
      texts.flatMap (fun text => unescape text.toList) = ['<', 'b', '>'] := by
  obtain ⟨-, texts, hparts, -, htexts⟩ := renderDelivery_lossless "desk/a" "<b>" (by decide)
  exact ⟨texts, hparts, htexts⟩

end Punaro.Telegram
