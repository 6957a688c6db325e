import Punaro.Lib.Search
import Punaro.Relay.Hash

/-!
# What a digest binds

The parts of a request are joined by a NUL character before they are hashed. The
texts a request is made of have no NUL character, so that the joined text determines
the parts, and a digest without collisions determines the request.
-/

namespace Punaro

/-- The text has no NUL character. -/
def Plain (text : String) : Prop := '\x00' ∉ text.toList

section

variable {E : Env} {a b : String}

theorem validBoundedText_plain {runes bytes : ℕ} (h : validBoundedText a runes bytes) : Plain a := by
  simp only [validBoundedText, Bool.and_eq_true, List.all_eq_true] at h
  intro hmem
  exact absurd (h.2 _ hmem) (by decide)

theorem validMessageBody_plain (h : validMessageBody a) : Plain a := by
  simp only [validMessageBody, Bool.and_eq_true, List.all_eq_true] at h
  intro hmem
  exact absurd (h.2 _ hmem) (by decide)

theorem Plain.append (ha : Plain a) (hb : Plain b) : Plain (a ++ b) := by
  simp only [Plain, String.toList_append, List.mem_append, not_or]
  exact ⟨ha, hb⟩

/-- Joined plain texts determine the texts. -/
theorem intercalate_inj {l l' : List String} (hl : ∀ part ∈ l, Plain part) (hl' : ∀ part ∈ l', Plain part)
    (hne : l ≠ []) (hne' : l' ≠ []) (h : "\x00".intercalate l = "\x00".intercalate l') : l = l' := by
  have hlists : ['\x00'].intercalate (l.map String.toList) = ['\x00'].intercalate (l'.map String.toList) := by
    have := congrArg String.toList h
    rwa [String.toList_intercalate, String.toList_intercalate] at this
  have hplain : ∀ {k : List String}, (∀ part ∈ k, Plain part) → ∀ chars ∈ k.map String.toList, '\x00' ∉ chars := by
    intro k hk chars hchars
    obtain ⟨text, htext, rfl⟩ := List.mem_map.1 hchars
    exact hk text htext
  have hmap := Search.intercalate_inj (hplain hl) (hplain hl') (by simpa using hne) (by simpa using hne') hlists
  exact List.map_injective_iff.2 (fun _ _ heq => String.toList_inj.1 heq) hmap

theorem stableHash_inj {l l' : List String} (hE : Function.Injective E.sha256Hex) (hl : ∀ part ∈ l, Plain part)
    (hl' : ∀ part ∈ l', Plain part) (hne : l ≠ []) (hne' : l' ≠ []) (h : stableHash E l = stableHash E l') :
    l = l' :=
  intercalate_inj hl hl' hne hne' (hE h)

theorem directMessageRequestHash_inj {fromRole toRole body fromRole' toRole' body' : String}
    (hE : Function.Injective E.sha256Hex) (hl : ∀ part ∈ [fromRole, toRole, body], Plain part)
    (hl' : ∀ part ∈ [fromRole', toRole', body'], Plain part)
    (h : directMessageRequestHash E fromRole toRole body = directMessageRequestHash E fromRole' toRole' body') :
    fromRole = fromRole' ∧ toRole = toRole' ∧ body = body' := by
  have heq := stableHash_inj hE hl hl' (by simp) (by simp) h
  simpa using heq

/-- The parts of an append that its digest takes in. -/
def appendParts (conversationID fromEndpoint targetRole body : String) : List String :=
  [conversationID, fromEndpoint, body] ++ if targetRole != "" then ["target-role:" ++ targetRole] else []

theorem appendParts_plain {c e t b : String} (h : ∀ part ∈ [c, e, t, b], Plain part) :
    ∀ part ∈ appendParts c e t b, Plain part := by
  simp only [List.forall_mem_cons, List.not_mem_nil, false_imp_iff, implies_true, and_true] at h
  obtain ⟨hc, he, ht, hb⟩ := h
  have htarget : Plain ("target-role:" ++ t) := Plain.append (by unfold Plain; decide) ht
  unfold appendParts
  split
  · simp only [List.cons_append, List.nil_append, List.forall_mem_cons]
    exact ⟨hc, he, hb, htarget, by simp⟩
  · simp only [List.cons_append, List.nil_append, List.forall_mem_cons]
    exact ⟨hc, he, hb, by simp⟩

theorem appendParts_inj {c e t b c' e' t' b' : String} (h : appendParts c e t b = appendParts c' e' t' b') :
    c = c' ∧ e = e' ∧ t = t' ∧ b = b' := by
  unfold appendParts at h
  simp only [List.cons_append, List.nil_append, List.cons.injEq] at h
  obtain ⟨hc, he, hb, ht⟩ := h
  refine ⟨hc, he, ?_, hb⟩
  by_cases hempty : t = "" <;> by_cases hempty' : t' = ""
  · rw [hempty, hempty']
  · simp [hempty, hempty'] at ht
  · simp [hempty, hempty'] at ht
  · simpa [hempty, hempty'] using ht

theorem appendHash_inj {c e t b c' e' t' b' : String} (hE : Function.Injective E.sha256Hex)
    (hl : ∀ part ∈ [c, e, t, b], Plain part) (hl' : ∀ part ∈ [c', e', t', b'], Plain part)
    (h : appendHash E c e t b = appendHash E c' e' t' b') : c = c' ∧ e = e' ∧ t = t' ∧ b = b' := by
  have hparts : stableHash E (appendParts c e t b) = stableHash E (appendParts c' e' t' b') := h
  exact appendParts_inj (stableHash_inj hE (appendParts_plain hl) (appendParts_plain hl') (by simp [appendParts])
    (by simp [appendParts]) hparts)

end

end Punaro
