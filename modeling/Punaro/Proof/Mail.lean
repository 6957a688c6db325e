import Punaro.Lib.Watermark
import Punaro.Proof.Ledger

/-!
# The mail invariant

`MailInv conversations R H m`: the mail `m` is well formed over its conversations,
every pending delivery is addressed to a recipient that receives (`R`), and the
cursor of every receiving recipient is its watermark against the head `H`. Between
transactions `H` is the conversation's last sequence (`MailOK`); inside a fan-out it
is one less for the recipients that have not been served yet.

`Evolves change m m'` is what a transaction does to the mail as seen from outside:
messages stay, closed deliveries stay as they are, pending ones change by `change`,
new ones have never been leased, and no cursor moves back. It composes, so it holds
of whole runs.
-/

namespace Punaro

open Outcome

/-! ## Positions -/

/-- The sequence of a conversation's last message. -/
def lastSequence (conversations : Table String ConversationRow) (c : String) : ℕ :=
  ((conversations.find? c).map ConversationRow.nextSequence).getD 0

/-- A stored cursor, read as 0 when there is none. -/
def Mail.cursor (m : Mail) (recipient c : String) : ℕ := (m.recipientCursors.find? (recipient, c)).getD 0

/-- A pending delivery of the conversation to the recipient. -/
def JoinedRow.PendingIn (r : JoinedRow) (recipient c : String) : Prop :=
  r.delivery.ackedAt = none ∧ r.delivery.recipientEndpoint = recipient ∧ r.message.conversationID = c

/-- The sequences a recipient has still to acknowledge. -/
def Mail.opened (m : Mail) (recipient c : String) : Set ℕ :=
  {n | ∃ r ∈ m.joined, r.PendingIn recipient c ∧ r.message.sequence = n}

/-- The recipient holds the right to receive: as an endpoint, or as a durable role under its key. -/
def Receives (r : Rooms) (c recipient : String) : Prop :=
  (∃ cap, r.memberships.find? (c, recipient) = some cap ∧ Capability.has cap capReceive) ∨
    ∃ role cap, recipient = roleRecipient role ∧ r.roleMemberships.find? (c, role) = some cap ∧
      Capability.has cap capReceive

structure MailInv (conversations : Table String ConversationRow) (R : String → String → Prop)
    (H : String → String → ℕ) (m : Mail) : Prop where
  sent : ∀ {id d}, m.deliveries.find? id = some d → ∃ message, m.messages.find? d.messageID = some message
  placed : ∀ {id message}, m.messages.find? id = some message →
    ∃ row, conversations.find? message.conversationID = some row ∧ message.sequence ≤ row.nextSequence
  recorded : ∀ {id t}, m.deliveryTerminals.find? id = some t →
    ∃ d, m.deliveries.find? id = some d ∧ d.ackedAt ≠ none ∧ (t.closedReason = .acked ↔ d.leaseToken ≠ none)
  received : ∀ {r}, r ∈ m.joined → r.delivery.ackedAt = none →
    R r.message.conversationID r.delivery.recipientEndpoint
  exact : ∀ {c recipient}, R c recipient → IsWatermark (m.opened recipient c) (H c recipient) (m.cursor recipient c)
  reach : ∀ {c recipient p}, p ∈ m.opened recipient c → p ≤ H c recipient
  bounded : ∀ c recipient, m.cursor recipient c ≤ lastSequence conversations c

section Basics

variable {conversations : Table String ConversationRow} {R : String → String → Prop}
  {H H' : String → String → ℕ} {m m' : Mail} {recipient c : String}
variable {p : ℕ}

theorem lastSequence_eq {row : ConversationRow} (h : conversations.find? c = some row) :
    lastSequence conversations c = row.nextSequence := by
  simp [lastSequence, h]

theorem cursor_put {n : ℕ} {c' r : String} :
    Mail.cursor { m with recipientCursors := m.recipientCursors.put (recipient, c) n } r c' =
      if c' = c ∧ r = recipient then n else m.cursor r c' := by
  simp only [Mail.cursor, Table.find?_put, Prod.mk.injEq, and_comm]
  split <;> rfl

/-- Counters and roles of senders do not matter. -/
theorem MailInv.beside (inv : MailInv conversations R H m) {install : Option QuotaCounters}
    {recipients : Table String QuotaCounters} {roles : Table String String} : MailInv conversations R H
      { m with pendingQuotaInstall := install, pendingQuotaRecipients := recipients, messageFromRoles := roles } :=
  ⟨inv.sent, inv.placed, inv.recorded, inv.received, inv.exact, inv.reach, inv.bounded⟩

theorem MailInv.opened_receives (inv : MailInv conversations R H m) (hp : p ∈ m.opened recipient c) :
    R c recipient := by
  obtain ⟨r, hr, ⟨ho, rfl, rfl⟩, -⟩ := hp
  exact inv.received hr ho

theorem MailInv.below (inv : MailInv conversations R H m) (hp : p ∈ m.opened recipient c) : m.cursor recipient c < p :=
  (inv.exact (inv.opened_receives hp)).lt hp

/-- Only the heads of receiving recipients matter. -/
theorem MailInv.congr_head (inv : MailInv conversations R H m)
    (h : ∀ c recipient, R c recipient → H c recipient = H' c recipient) : MailInv conversations R H' m :=
  { inv with
    exact := fun hR => h _ _ hR ▸ inv.exact hR
    reach := fun hp => h _ _ (inv.opened_receives hp) ▸ inv.reach hp }

/-! ## Advancing a cursor -/

theorem mem_opened_above : (p ∈ m.opened recipient c ∧ m.cursor recipient c < p) ↔
    p ∈ (m.joined.filter fun r => r.delivery.recipientEndpoint == recipient &&
      r.message.conversationID == c && r.delivery.ackedAt.isNone &&
      m.cursor recipient c < r.message.sequence).map fun r => r.message.sequence := by
  simp only [Mail.opened, JoinedRow.PendingIn, Set.mem_ofPred_eq, List.mem_map, List.mem_filter,
    Bool.and_eq_true, beq_iff_eq, Option.isNone_iff_eq_none, decide_eq_true_eq]
  constructor
  · rintro ⟨⟨r, hr, ⟨ho, hrec, hc⟩, rfl⟩, hlt⟩
    exact ⟨r, ⟨hr, ⟨⟨hrec, hc⟩, ho⟩, hlt⟩, rfl⟩
  · rintro ⟨r, ⟨hr, ⟨⟨hrec, hc⟩, ho⟩, hlt⟩, rfl⟩
    exact ⟨⟨r, hr, ⟨ho, hrec, hc⟩, rfl⟩, hlt⟩

/-- **The cursor after an advance is the watermark**, from any cursor below all that is open. -/
theorem advanceRecipientCursor_eq_ok (hbelow : ∀ p ∈ m.opened recipient c, m.cursor recipient c < p)
    (hbounded : m.cursor recipient c ≤ lastSequence conversations c)
    (h : advanceRecipientCursor conversations m recipient c = .ok m') :
    ∃ n, m' = { m with recipientCursors := m.recipientCursors.put (recipient, c) n } ∧
      IsWatermark (m.opened recipient c) (lastSequence conversations c) n ∧ m.cursor recipient c ≤ n := by
  have hmono : ∀ target, m.cursor recipient c ≤
      if m.cursor recipient c < target then target else m.cursor recipient c := by
    intro target
    split <;> omega
  unfold advanceRecipientCursor at h
  dsimp only at h
  split at h
  · rename_i next hnext
    simp only [ok_rules, exists_eq_left'] at h
    obtain ⟨hmem, hmin⟩ := List.min?_eq_some_iff.1 hnext
    have hpos := (mem_opened_above.2 hmem).2
    obtain ⟨target, rfl⟩ : ∃ target, next = target + 1 := ⟨next - 1, by omega⟩
    refine ⟨_, h.symm, IsWatermark.advance hbelow hbounded (.inl ?_), hmono _⟩
    exact ⟨mem_opened_above.2 hmem, fun p hp => hmin p (mem_opened_above.1 hp)⟩
  · rename_i hnone
    simp only [ok_rules, exists_eq_left'] at h
    obtain ⟨row, hrow, rfl⟩ := h
    refine ⟨_, rfl, IsWatermark.advance hbelow hbounded (.inr ⟨?_, (lastSequence_eq hrow).symm⟩), hmono _⟩
    refine Set.eq_empty_of_forall_notMem fun p hp => ?_
    have hp := mem_opened_above.1 hp
    rw [Mail.cursor, List.min?_eq_none_iff.1 hnone] at hp
    cases hp

theorem advanceRecipientCursor_error (conversations : Table String ConversationRow) (m : Mail)
    (recipient c : String) :
    OnError QuotaSafe (advanceRecipientCursor conversations m recipient c) := by
  unfold advanceRecipientCursor
  dsimp only
  split <;> simp

theorem advanceRecipientCursor_frame (h : advanceRecipientCursor conversations m recipient c = .ok m') :
    ∃ t, m' = { m with recipientCursors := t } := by
  unfold advanceRecipientCursor at h
  dsimp only at h
  split at h
  · simp only [ok_rules, exists_eq_left'] at h
    exact ⟨_, h.symm⟩
  · simp only [ok_rules, exists_eq_left'] at h
    obtain ⟨-, -, rfl⟩ := h
    exact ⟨_, rfl⟩

/-- After an advance the recipient's head is the last sequence. -/
theorem MailInv.advance (inv : MailInv conversations R H m)
    (h : advanceRecipientCursor conversations m recipient c = .ok m') :
    MailInv conversations R
      (fun c' r => if c' = c ∧ r = recipient then lastSequence conversations c else H c' r) m' := by
  obtain ⟨n, rfl, hexact, -⟩ := advanceRecipientCursor_eq_ok (fun p hp => inv.below hp)
    (inv.bounded c recipient) h
  have hle : ∀ p ∈ m.opened recipient c, p ≤ lastSequence conversations c := by
    rintro p ⟨r, hr, ⟨-, -, rfl⟩, rfl⟩
    obtain ⟨row, hrow, hseq⟩ := inv.placed (mem_joined.1 hr).2
    rwa [lastSequence_eq hrow]
  refine ⟨inv.sent, inv.placed, inv.recorded, inv.received, ?_, ?_, ?_⟩
  · intro c' r hR
    rw [cursor_put]
    split
    · rename_i h'
      obtain ⟨rfl, rfl⟩ := h'
      exact hexact
    · exact inv.exact hR
  · intro c' r p hp
    split
    · rename_i h'
      obtain ⟨rfl, rfl⟩ := h'
      exact hle p hp
    · exact inv.reach hp
  · intro c' r
    rw [cursor_put]
    split
    · rename_i h'
      obtain ⟨rfl, rfl⟩ := h'
      exact hexact.le_head hle
    · exact inv.bounded c' r

end Basics

/-! ## What a transaction does to the mail -/

structure Evolves (change : String → DeliveryRow → DeliveryRow → Prop) (m m' : Mail) : Prop where
  messages : ∀ {id message}, m.messages.find? id = some message → m'.messages.find? id = some message
  closed : ∀ {id d}, m.deliveries.find? id = some d → d.ackedAt ≠ none → m'.deliveries.find? id = some d
  pending : ∀ {id d}, m.deliveries.find? id = some d → d.ackedAt = none →
    ∃ d', m'.deliveries.find? id = some d' ∧ change id d d'
  fresh : ∀ {id d}, m.deliveries.find? id = none → m'.deliveries.find? id = some d →
    ∃ messageID recipient, change id (.new messageID recipient) d
  cursors : ∀ {k n}, m.recipientCursors.find? k = some n → ∃ n', m'.recipientCursors.find? k = some n' ∧ n ≤ n'

/-- The pending delivery stays as it is. -/
def Unchanged (_ : String) (d d' : DeliveryRow) : Prop := d' = d

theorem unchanged_refl (id : String) (d : DeliveryRow) : Unchanged id d d := rfl

/-- The row of a delivery closed without an acknowledgement. -/
def DeliveryRow.retire (closedAt : Int) (d : DeliveryRow) : DeliveryRow :=
  { d.unlease with ackedAt := some closedAt }

/-- The pending delivery stays as it is, or is closed and loses its lease. -/
def Retired (_ : String) (d d' : DeliveryRow) : Prop := d' = d ∨ ∃ closedAt, d' = d.retire closedAt

theorem retired_refl (id : String) (d : DeliveryRow) : Retired id d d := .inl rfl

theorem retired_trans (id : String) (d d' d'' : DeliveryRow) (hp : d'.ackedAt = none)
    (h : Retired id d d') (h' : Retired id d' d'') : Retired id d d'' := by
  rcases h with rfl | ⟨closedAt, rfl⟩
  · exact h'
  · cases hp

namespace Evolves

variable {C C' : String → DeliveryRow → DeliveryRow → Prop} {m m' m'' : Mail} {recipient c : String}

/-- The tables of messages, deliveries and cursors stay. -/
theorem of_tables (hC : ∀ id d, C id d d) (hm : m'.messages = m.messages)
    (hd : m'.deliveries = m.deliveries) (hc : m'.recipientCursors = m.recipientCursors) : Evolves C m m' := by
  refine ⟨fun h => hm ▸ h, fun h _ => hd ▸ h, fun h _ => ⟨_, hd ▸ h, hC _ _⟩, fun h h' => ?_,
    fun h => ⟨_, hc ▸ h, le_rfl⟩⟩
  rw [hd, h] at h'
  cases h'

theorem refl (hC : ∀ id d, C id d d) (m : Mail) : Evolves C m m := of_tables hC rfl rfl rfl

theorem mono (h : Evolves C m m') (hC : ∀ id d d', C id d d' → C' id d d') : Evolves C' m m' := by
  refine ⟨h.messages, h.closed, fun hd hp => ?_, fun hd hd' => ?_, h.cursors⟩
  · obtain ⟨d', hd', hc⟩ := h.pending hd hp
    exact ⟨d', hd', hC _ _ _ hc⟩
  · obtain ⟨messageID, recipient, hc⟩ := h.fresh hd hd'
    exact ⟨messageID, recipient, hC _ _ _ hc⟩

theorem comp {C₂ : String → DeliveryRow → DeliveryRow → Prop}
    (hC : ∀ id d d' d'', d'.ackedAt = none → C id d d' → C' id d' d'' → C₂ id d d'')
    (hfirst : ∀ id d d', C id d d' → C₂ id d d') (hsecond : ∀ id d d', C' id d d' → C₂ id d d')
    (h : Evolves C m m') (h' : Evolves C' m' m'') : Evolves C₂ m m'' := by
  have two : ∀ {id d d'}, m'.deliveries.find? id = some d' → C id d d' →
      ∃ d'', m''.deliveries.find? id = some d'' ∧ C₂ id d d'' := by
    intro id d d' hd' hc
    by_cases hp : d'.ackedAt = none
    · obtain ⟨d'', hd'', hc'⟩ := h'.pending hd' hp
      exact ⟨d'', hd'', hC _ _ _ _ hp hc hc'⟩
    · exact ⟨d', h'.closed hd' hp, hfirst _ _ _ hc⟩
  refine ⟨fun hm => h'.messages (h.messages hm), fun hd hp => h'.closed (h.closed hd hp) hp, ?_, ?_, ?_⟩
  · intro id d hd hp
    obtain ⟨d', hd', hc⟩ := h.pending hd hp
    exact two hd' hc
  · intro id d'' hd hd''
    cases hd' : m'.deliveries.find? id with
    | none =>
      obtain ⟨messageID, recipient, hc⟩ := h'.fresh hd' hd''
      exact ⟨messageID, recipient, hsecond _ _ _ hc⟩
    | some d' =>
      obtain ⟨messageID, recipient, hc⟩ := h.fresh hd hd'
      obtain ⟨e, he, hc'⟩ := two hd' hc
      rw [hd''] at he
      cases he
      exact ⟨messageID, recipient, hc'⟩
  · intro k n hk
    obtain ⟨n', hk', hle⟩ := h.cursors hk
    obtain ⟨n'', hk'', hle'⟩ := h'.cursors hk'
    exact ⟨n'', hk'', hle.trans hle'⟩

theorem trans (hC : ∀ id d d' d'', d'.ackedAt = none → C id d d' → C id d' d'' → C id d d'')
    (h : Evolves C m m') (h' : Evolves C m' m'') : Evolves C m m'' :=
  h.comp hC (fun _ _ _ hc => hc) (fun _ _ _ hc => hc) h'

/-- Followed by a change of other tables. -/
theorem andThen (hC : ∀ id d, C id d d) (h : Evolves C m m') (h' : Evolves Unchanged m' m'') : Evolves C m m'' := by
  refine h.comp (fun _ _ _ _ _ hc hu => ?_) (fun _ _ _ hc => hc) (fun id d d' hu => ?_) h'
  · exact hu ▸ hc
  · exact hu ▸ hC id d

/-- Updating delivery rows. -/
theorem of_update {f : String → DeliveryRow → DeliveryRow}
    (hclosed : ∀ {id d}, m.deliveries.find? id = some d → d.ackedAt ≠ none → f id d = d)
    (hpending : ∀ {id d}, m.deliveries.find? id = some d → d.ackedAt = none → C id d (f id d)) :
    Evolves C m { m with deliveries := m.deliveries.update f } := by
  refine ⟨fun h => h, fun hd hp => ?_, fun hd hp => ⟨f _ _, ?_, hpending hd hp⟩, fun hd hd' => ?_,
    fun h => ⟨_, h, le_rfl⟩⟩
  · rw [Table.find?_update, hd, Option.map_some, hclosed hd hp]
  · rw [Table.find?_update, hd, Option.map_some]
  · rw [Table.find?_update, hd] at hd'
    cases hd'

theorem of_put {n : ℕ} (hn : m.cursor recipient c ≤ n) :
    Evolves Unchanged m { m with recipientCursors := m.recipientCursors.put (recipient, c) n } := by
  refine ⟨fun h => h, fun h _ => h, fun h _ => ⟨_, h, rfl⟩, fun hd hd' => ?_, fun {k n'} hk => ?_⟩
  · rw [hd] at hd'
    cases hd'
  · rw [Table.find?_put]
    split
    · rename_i hk'
      subst hk'
      rw [Mail.cursor, hk] at hn
      exact ⟨n, rfl, hn⟩
    · exact ⟨n', hk, le_rfl⟩

end Evolves

end Punaro
