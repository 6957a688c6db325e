import Mathlib.Algebra.Group.Prod
import Mathlib.Algebra.Module.NatInt
import Punaro.Relay.Ops

/-!
# What is pending, as a sum

`Mail.usage m p` is the number of pending deliveries to the recipients `p` selects,
with the bytes of their bodies, as one sum over the delivery table. It is what the
relay's own queries measure (`measure_pendingFor`), and it follows the table: a new
delivery adds its weight, a close takes it away, leasing changes nothing.

`Quotas m owed b` says that the counters are the usage plus one delivery of `b`
bytes for each recipient in `owed`: mail that has been charged but not written, or
closed but not released. With nothing owed the counters are exact.
-/

namespace Punaro

open Outcome

variable {m m' : Mail} {p : String → Bool} {recipient : String} {owed : List String} {b : ℕ}
variable {message : MessageRow} {d : DeliveryRow} {id messageID : String} {f : DeliveryRow → DeliveryRow}
  {t : Table String DeliveryRow} {recipients : List String}

theorem mem_joined {r : JoinedRow} : r ∈ m.joined ↔
    m.deliveries.find? r.id = some r.delivery ∧ m.messages.find? r.delivery.messageID = some r.message := by
  obtain ⟨id, d, message⟩ := r
  simp only [Mail.joined, List.mem_filterMap, Option.map_eq_some_iff, Prod.exists,
    ← Table.find?_eq_some_iff_mem, JoinedRow.mk.injEq]
  constructor
  · rintro ⟨id', d', hd, message', hm, rfl, rfl, rfl⟩
    exact ⟨hd, hm⟩
  · rintro ⟨hd, hm⟩
    exact ⟨id, d, hd, message, hm, rfl, rfl, rfl⟩

/-! ## Usage -/

/-- What a delivery contributes: itself and its body's bytes while it is pending. -/
def Mail.weight (m : Mail) (p : String → Bool) (d : DeliveryRow) : ℕ × ℕ :=
  match m.messages.find? d.messageID with
  | none => 0
  | some message =>
    if d.ackedAt.isNone && p d.recipientEndpoint then (1, message.body.utf8ByteSize) else 0

def Mail.usage (m : Mail) (p : String → Bool) : ℕ × ℕ := m.deliveries.sum fun _ d => m.weight p d

/-- The counters as a pair. -/
def QuotaCounters.pair (c : QuotaCounters) : ℕ × ℕ := (c.count, c.bytes)

theorem QuotaCounters.pair_injective : Function.Injective QuotaCounters.pair := by
  rintro ⟨c, b⟩ ⟨c', b'⟩ h
  simpa [pair] using h

theorem measure_pair_cons (r : JoinedRow) (rows : List JoinedRow) :
    (measure (r :: rows)).pair = (1, r.bodyBytes) + (measure rows).pair := by
  simp [measure, QuotaCounters.pair, Nat.add_comm]

theorem measure_filter (m : Mail) (p : String → Bool) :
    (measure (m.pendingRows.filter fun r => p r.delivery.recipientEndpoint)).pair = m.usage p := by
  unfold Mail.usage Mail.pendingRows Mail.joined Table.sum
  induction m.deliveries.rows with
  | nil => rfl
  | cons d rows ih =>
    rw [List.map_cons, List.sum_cons, ← ih]
    unfold Mail.weight
    cases hm : m.messages.find? d.2.messageID with
    | none => simp [hm]
    | some message =>
      by_cases hd : d.2.ackedAt.isNone <;> by_cases hp : p d.2.recipientEndpoint <;>
        simp [hm, hd, hp, measure_pair_cons, JoinedRow.bodyBytes]

theorem measure_pendingRows (m : Mail) : (measure m.pendingRows).pair = m.usage fun _ => true := by
  simpa using measure_filter m fun _ => true

theorem measure_pendingFor (m : Mail) (recipient : String) :
    (measure (m.pendingFor recipient)).pair = m.usage (· == recipient) :=
  measure_filter m (· == recipient)

/-! ## How the tables move it -/

/-- The weight of a new delivery of the given message. -/
theorem weight_new (hm : m.messages.find? messageID = some message) :
    m.weight p (.new messageID recipient) =
      if p recipient then (1, message.body.utf8ByteSize) else 0 := by
  simp [Mail.weight, hm, DeliveryRow.new]

theorem weight_closed (hd : d.ackedAt ≠ none) : m.weight p d = 0 := by
  unfold Mail.weight
  split
  · rfl
  · simp [hd]

theorem weight_pending (hd : d.ackedAt = none) (hm : m.messages.find? d.messageID = some message) :
    m.weight p d = if p d.recipientEndpoint then (1, message.body.utf8ByteSize) else 0 := by
  simp [Mail.weight, hm, hd]

/-- Rewriting delivery rows without touching what a delivery is about keeps the usage. -/
theorem usage_update {f : String → DeliveryRow → DeliveryRow}
    (hf : ∀ id d, m.deliveries.find? id = some d → (f id d).messageID = d.messageID ∧
      (f id d).recipientEndpoint = d.recipientEndpoint ∧ (f id d).ackedAt = d.ackedAt) :
    Mail.usage { m with deliveries := m.deliveries.update f } p = m.usage p := by
  unfold Mail.usage
  rw [Table.sum_update]
  refine Table.sum_congr fun id d hd => ?_
  simp [Mail.weight, hf id d hd]

theorem usage_counters (t : Table String QuotaCounters) (i : Option QuotaCounters) :
    Mail.usage { m with pendingQuotaRecipients := t, pendingQuotaInstall := i } p = m.usage p :=
  rfl

theorem usage_insertDelivery (hm : m.messages.find? messageID = some message)
    (ht : m.deliveries.insert? id (.new messageID recipient) = some t) :
    Mail.usage { m with deliveries := t } p =
      m.usage p + if p recipient then (1, message.body.utf8ByteSize) else 0 := by
  unfold Mail.usage
  rw [Table.sum_insert? ht]
  exact congrArg (m.usage p + ·) (weight_new hm)

theorem usage_close (hd : m.deliveries.find? id = some d) (hp : d.ackedAt = none)
    (hm : m.messages.find? d.messageID = some message) (hf : (f d).ackedAt ≠ none) :
    m.usage p = Mail.usage { m with deliveries := m.deliveries.updateAt id f } p +
      if p d.recipientEndpoint then (1, message.body.utf8ByteSize) else 0 := by
  have h := Table.sum_updateAt hd f fun _ d => m.weight p d
  rw [weight_pending hp hm, weight_closed hf, add_zero] at h
  exact h.symm

/-- A message without deliveries yet changes no weight. -/
theorem usage_insertMessage {row : MessageRow} {t : Table String MessageRow}
    (hfk : ∀ {id d}, m.deliveries.find? id = some d → ∃ message, m.messages.find? d.messageID = some message)
    (ht : m.messages.insert? id row = some t) : Mail.usage { m with messages := t } p = m.usage p := by
  refine Table.sum_congr fun id' d hd => ?_
  obtain ⟨message, hm⟩ := hfk hd
  have hne : d.messageID ≠ id := by
    rintro rfl
    rw [(Table.insert?_eq_some ht).1] at hm
    cases hm
  simp [Mail.weight, Table.find?_insert? ht, hne]

/-! ## Counters -/

/-- The counters are the usage plus one delivery of `b` bytes for each recipient in `owed`. -/
structure Quotas (m : Mail) (owed : List String) (b : ℕ) : Prop where
  install : (readInstallQuota m).pair = m.usage (fun _ => true) + owed.length • (1, b)
  charged : ∀ {recipient q}, m.pendingQuotaRecipients.find? recipient = some q →
    q.pair = m.usage (· == recipient) + owed.count recipient • (1, b)
  covered : ∀ {recipient}, m.usage (· == recipient) ≠ 0 ∨ recipient ∈ owed →
    (m.pendingQuotaRecipients.find? recipient).isSome

namespace Quotas

theorem nil_bytes (h : Quotas m [] b) (b' : ℕ) : Quotas m [] b' :=
  ⟨by simpa using h.install, fun hq => by simpa using h.charged hq, h.covered⟩

theorem perm {owed' : List String} (h : Quotas m owed b) (hp : owed.Perm owed') : Quotas m owed' b := by
  refine ⟨hp.length_eq ▸ h.install, fun hq => ?_, fun hq => h.covered (hq.imp_right hp.mem_iff.2)⟩
  rw [← hp.count_eq]
  exact h.charged hq

/-- Writing a charged delivery settles its debt. -/
theorem insertDelivery {id : String} {message : MessageRow} (h : Quotas m (recipient :: owed) b)
    (hm : m.messages.find? messageID = some message) (hb : message.body.utf8ByteSize = b)
    (ht : m.deliveries.insert? id (.new messageID recipient) = some t) :
    Quotas { m with deliveries := t } owed b := by
  subst hb
  constructor
  · rw [usage_insertDelivery hm ht]
    refine h.install.trans ?_
    rw [if_pos rfl, List.length_cons, succ_nsmul', add_assoc]
  · intro r q hq
    rw [usage_insertDelivery hm ht]
    refine (h.charged hq).trans ?_
    by_cases hr : recipient = r
    · subst hr
      rw [if_pos (beq_self_eq_true _), List.count_cons_self, succ_nsmul', add_assoc]
    · simp [List.count_cons_of_ne hr, hr]
  · intro r hr
    rw [usage_insertDelivery hm ht] at hr
    by_cases hr' : recipient = r
    · subst hr'; exact h.covered (.inr (by simp))
    · rw [if_neg (by simpa using hr'), add_zero] at hr
      exact h.covered (hr.imp_right (List.mem_cons_of_mem _))

/-- Closing a delivery leaves its release owed. -/
theorem close {id : String} {d : DeliveryRow} {message : MessageRow} (h : Quotas m owed b)
    (hd : m.deliveries.find? id = some d) (hp : d.ackedAt = none) (hm : m.messages.find? d.messageID = some message)
    (hb : message.body.utf8ByteSize = b) (hf : (f d).ackedAt ≠ none) :
    Quotas { m with deliveries := m.deliveries.updateAt id f } (d.recipientEndpoint :: owed) b := by
  subst hb
  constructor
  · refine h.install.trans ?_
    rw [usage_close hd hp hm hf, if_pos rfl, List.length_cons, succ_nsmul', add_assoc]
  · intro r q hq
    refine (h.charged hq).trans ?_
    rw [usage_close hd hp hm hf]
    by_cases hr : d.recipientEndpoint = r
    · subst hr
      rw [if_pos (beq_self_eq_true _), List.count_cons_self, succ_nsmul', add_assoc]
    · simp [List.count_cons_of_ne hr, hr]
  · intro r hr
    refine h.covered ?_
    rw [usage_close hd hp hm hf]
    rcases hr with hr | hr
    · refine .inl fun h0 => hr ?_
      exact (add_eq_zero.1 h0).1
    · rcases List.mem_cons.1 hr with rfl | hr
      · left; simp
      · exact .inr hr

/-- A change that keeps the usage keeps the counters exact. -/
theorem of_usage (h : Quotas m owed b) (hu : ∀ p, m'.usage p = m.usage p)
    (hr : m'.pendingQuotaRecipients = m.pendingQuotaRecipients)
    (hi : m'.pendingQuotaInstall = m.pendingQuotaInstall) : Quotas m' owed b := by
  constructor
  · rw [readInstallQuota, hi, hu]; exact h.install
  · intro r q hq
    rw [hr] at hq
    rw [hu]; exact h.charged hq
  · intro r hr'
    rw [hu] at hr'
    rw [hr]; exact h.covered hr'

theorem usage_eq_zero (h : Quotas m [] b) (hr : m.pendingQuotaRecipients.find? recipient = none) :
    m.usage (· == recipient) = 0 := by
  by_contra hne
  simpa [hr] using h.covered (.inl hne)

end Quotas

theorem pair_charge_iterate (b n : ℕ) (c : QuotaCounters) :
    ((QuotaCounters.charge b)^[n] c).pair = c.pair + n • (1, b) := by
  induction n generalizing c with
  | zero => simp
  | succ n ih =>
    rw [Function.iterate_succ_apply, ih, succ_nsmul', ← add_assoc]
    rfl

/-- **Charging.** An accepted charge leaves exactly the fan-out owed. -/
theorem Quotas.consumeQuota {cfg : QuotaConfig} (h : Quotas m [] b) (hc : consumeQuota cfg m recipients b = .ok m') :
    Quotas m' recipients b := by
  unfold Punaro.consumeQuota at hc
  split at hc
  · rename_i hnil
    cases hc
    rwa [List.isEmpty_iff.1 hnil]
  · simp only [ok_rules] at hc
    obtain ⟨-, -, rfl⟩ := hc
    constructor
    · have hi := h.install
      rw [List.length_nil, zero_nsmul, add_zero] at hi
      rw [usage_counters, ← hi]
      simp [readInstallQuota, QuotaCounters.pair, Nat.mul_comm]
    · intro r q hq
      rw [usage_counters]
      simp only [Table.foldl_updateAt, Table.find?_update,
        Table.find?_foldl_insertOrIgnore fun _ => (⟨0, 0⟩ : QuotaCounters), Option.map_eq_some_iff] at hq
      obtain ⟨c, hc, rfl⟩ := hq
      rw [pair_charge_iterate]
      congr 1
      cases hr : m.pendingQuotaRecipients.find? r with
      | some old =>
        rw [hr] at hc
        cases hc
        simpa using h.charged hr
      | none =>
        rw [hr, Option.none_or] at hc
        split at hc
        · cases hc
          exact (h.usage_eq_zero hr).symm
        · cases hc
    · intro r hr
      rw [usage_counters] at hr
      simp only [Table.foldl_updateAt, Table.find?_update,
        Table.find?_foldl_insertOrIgnore fun _ => (⟨0, 0⟩ : QuotaCounters), Option.isSome_map]
      rcases hr with hr | hr
      · obtain ⟨q, hq⟩ := Option.isSome_iff_exists.1 (h.covered (.inl hr))
        simp [hq]
      · simp [hr]

/-- The counters hold at least what is owed. -/
theorem Quotas.owed_le (h : Quotas m (recipient :: owed) b) :
    (∃ q, m.pendingQuotaRecipients.find? recipient = some q ∧ 1 ≤ q.count ∧ b ≤ q.bytes) ∧
      1 ≤ (readInstallQuota m).count ∧ b ≤ (readInstallQuota m).bytes := by
  have hle : ∀ (c : QuotaCounters) (u : ℕ × ℕ) (n : ℕ), c.pair = u + (n + 1) • (1, b) →
      1 ≤ c.count ∧ b ≤ c.bytes := by
    intro c u n hc
    rw [succ_nsmul'] at hc
    obtain ⟨h₁, h₂⟩ := Prod.ext_iff.1 hc
    simp only [QuotaCounters.pair, Prod.fst_add, Prod.snd_add] at h₁ h₂
    omega
  obtain ⟨q, hq⟩ := Option.isSome_iff_exists.1 (h.covered (.inr (List.mem_cons_self ..)))
  have hq' := h.charged hq
  rw [List.count_cons_self] at hq'
  exact ⟨⟨q, hq, hle q _ _ hq'⟩, hle _ _ _ h.install⟩

theorem releaseQuota_frame (h : releaseQuota m recipient b = .ok m') :
    ∃ t i, m' = { m with pendingQuotaRecipients := t, pendingQuotaInstall := i } := by
  unfold releaseQuota at h
  simp only [ok_rules, exists_const] at h
  obtain ⟨-, -, -, rfl⟩ := h
  exact ⟨_, _, rfl⟩

theorem consumeQuota_frame {cfg : QuotaConfig} (h : consumeQuota cfg m recipients b = .ok m') :
    ∃ t i, m' = { m with pendingQuotaRecipients := t, pendingQuotaInstall := i } := by
  unfold consumeQuota at h
  split at h
  · cases h
    exact ⟨m.pendingQuotaRecipients, m.pendingQuotaInstall, rfl⟩
  · simp only [ok_rules] at h
    obtain ⟨-, -, rfl⟩ := h
    exact ⟨_, _, rfl⟩

theorem releaseQuota_eq_ok {q : QuotaCounters} (hq : m.pendingQuotaRecipients.find? recipient = some q) :
    releaseQuota m recipient b = .ok m' ↔
      recipient ≠ "" ∧ (1 ≤ q.count ∧ b ≤ q.bytes) ∧
        (1 ≤ (readInstallQuota m).count ∧ b ≤ (readInstallQuota m).bytes) ∧
        m' = { m with
          pendingQuotaRecipients := m.pendingQuotaRecipients.updateAt recipient (.release b)
          pendingQuotaInstall := some ((readInstallQuota m).release b) } := by
  unfold releaseQuota
  simp only [Table.insertOrIgnore_of_some hq, hq, Option.getD_some, ok_rules, exists_const, @eq_comm _ m']

theorem pair_release {c : QuotaCounters} {u : ℕ × ℕ} {n : ℕ} (h : c.pair = u + (n + 1) • (1, b)) :
    (c.release b).pair = u + n • (1, b) := by
  rw [succ_nsmul', ← add_assoc, add_right_comm] at h
  obtain ⟨h₁, h₂⟩ := Prod.ext_iff.1 h
  simp only [QuotaCounters.pair, Prod.fst_add, Prod.snd_add] at h₁ h₂
  refine Prod.ext ?_ ?_
  · simp only [QuotaCounters.pair, QuotaCounters.release, Prod.fst_add]; omega
  · simp only [QuotaCounters.pair, QuotaCounters.release, Prod.snd_add]; omega

/-- **Releasing.** A release settles one closed delivery. -/
theorem Quotas.releaseQuota (h : Quotas m (recipient :: owed) b)
    (hr : releaseQuota m recipient b = .ok m') : Quotas m' owed b := by
  obtain ⟨⟨q, hq, -⟩, -⟩ := h.owed_le
  obtain ⟨-, -, -, rfl⟩ := (releaseQuota_eq_ok hq).1 hr
  constructor
  · rw [usage_counters]
    exact pair_release h.install
  · intro r c hc
    rw [usage_counters]
    rw [Table.find?_updateAt] at hc
    split at hc
    · rename_i hr'
      subst hr'
      obtain ⟨c, hr, rfl⟩ := Option.map_eq_some_iff.1 hc
      have hcharged := h.charged hr
      rw [List.count_cons_self] at hcharged
      exact pair_release hcharged
    · rename_i hne
      simpa [List.count_cons_of_ne (Ne.symm hne)] using h.charged hc
  · intro r hr'
    rw [usage_counters] at hr'
    have := h.covered (hr'.imp_right (List.mem_cons_of_mem recipient))
    rw [Table.find?_updateAt]
    split
    · simpa using this
    · exact this

/-- The error is not the report of inconsistent counters. -/
def QuotaSafe (e : Err) : Prop := e.is .quotaInconsistent = false

@[simp] theorem quotaSafe_forbidden : QuotaSafe .forbidden := rfl
@[simp] theorem quotaSafe_conflict : QuotaSafe .conflict := rfl
@[simp] theorem quotaSafe_constraint : QuotaSafe .constraint := rfl
@[simp] theorem quotaSafe_noRows : QuotaSafe .noRows := rfl
@[simp] theorem quotaSafe_message (text : String) : QuotaSafe (.message text) := rfl
@[simp] theorem quotaSafe_rateLimited (n : Int) : QuotaSafe (.rateLimited n) := rfl
@[simp] theorem quotaSafe_capacityExceeded (n : ℕ) : QuotaSafe (.capacityExceeded n) := rfl

@[simp] theorem quotaSafe_wrapped (context : String) (e : Err) : QuotaSafe (.wrapped context e) ↔ QuotaSafe e := by
  simp [QuotaSafe, Err.is]

/-- A release that is owed is never refused as inconsistent. -/
theorem Quotas.releaseQuota_error (h : Quotas m (recipient :: owed) b) :
    OnError QuotaSafe (Punaro.releaseQuota m recipient b) := by
  obtain ⟨⟨q, hq, hle⟩, hi⟩ := h.owed_le
  unfold Punaro.releaseQuota
  simp [Table.insertOrIgnore_of_some hq, hq, hle, hi]

/-! ## Verifying and rebuilding -/

theorem mem_pendingRecipients : recipient ∈ (m.pendingRows.map fun r => r.delivery.recipientEndpoint).dedup ↔
    m.pendingFor recipient ≠ [] := by
  simp [Mail.pendingFor, List.filter_eq_nil_iff]

/-- Whoever has pending mail has a row. -/
theorem Quotas.covers {r : JoinedRow} (h : Quotas m [] b) (hr : r ∈ m.joined) (hp : r.delivery.ackedAt = none) :
    (m.pendingQuotaRecipients.find? r.delivery.recipientEndpoint).isSome := by
  by_contra hnone
  rw [Option.not_isSome_iff_eq_none] at hnone
  have hzero := congrArg Prod.fst ((measure_pendingFor m _).trans (h.usage_eq_zero hnone))
  have hmem : r ∈ m.pendingFor r.delivery.recipientEndpoint := by
    simp [Mail.pendingFor, Mail.pendingRows, hr, hp]
  rw [List.length_eq_zero_iff.1 hzero] at hmem
  cases hmem

theorem usage_eq_zero_of_pendingFor (h : m.pendingFor recipient = []) : m.usage (· == recipient) = 0 := by
  rw [← measure_pendingFor, h]
  rfl

theorem lookup_map_self {α β : Type} [DecidableEq α] (f : α → β) (l : List α) (a : α) :
    (l.map fun x => (x, f x)).lookup a = if a ∈ l then some (f a) else none := by
  induction l with
  | nil => rfl
  | cons x l ih =>
    rw [List.map_cons, List.lookup_cons, ih]
    by_cases h : a = x
    · subst h; simp
    · simp [h, beq_eq_false_iff_ne.2 h]

/-- Exact counters pass the verification. -/
theorem Quotas.verifyPendingQuota (h : Quotas m [] b) : verifyPendingQuota m = .ok () := by
  have hinstall : readInstallQuota m = measure m.pendingRows := by
    apply QuotaCounters.pair_injective
    rw [measure_pendingRows]
    simpa using h.install
  have hcharged : ∀ {r q}, m.pendingQuotaRecipients.find? r = some q → q = measure (m.pendingFor r) := by
    intro r q hq
    apply QuotaCounters.pair_injective
    rw [measure_pendingFor]
    simpa using h.charged hq
  unfold Punaro.verifyPendingQuota
  simp only [ok_rules, exists_const, hinstall, true_and]
  refine ⟨?_, ?_, ?_⟩
  · have hgroups := fun w : JoinedRow → ℕ =>
      Table.sum_groups (fun r : JoinedRow => r.delivery.recipientEndpoint) w m.pendingRows
    have hcount := hgroups fun _ => 1
    have hbytes := hgroups JoinedRow.bodyBytes
    simp only [List.map_const', List.sum_replicate, smul_eq_mul, mul_one] at hcount
    ext
    · simpa [Mail.pendingGroups, measure, Mail.pendingFor, Function.comp_def] using hcount
    · simpa [Mail.pendingGroups, measure, Mail.pendingFor, Function.comp_def] using hbytes
  · intro r hr
    rw [hcharged (Table.find?_eq_some_iff_mem.2 hr), Mail.pendingGroups, lookup_map_self]
    simp only [mem_pendingRecipients]
    split
    · rfl
    · rename_i hnil
      rw [not_not.1 hnil]
      rfl
  · intro g hg
    obtain ⟨r, hr, rfl⟩ := List.mem_map.1 hg
    by_contra hnone
    rw [Option.not_isSome_iff_eq_none] at hnone
    refine mem_pendingRecipients.1 hr (List.length_eq_zero_iff.1 ?_)
    exact congrArg Prod.fst ((measure_pendingFor m r).trans (h.usage_eq_zero hnone))

theorem foldl_pendingGroups (m : Mail) (t : Table String QuotaCounters) (r : String) :
    (m.pendingGroups.foldl (fun t g => t.insertOrIgnore g.1 g.2) t).find? r =
      (t.find? r).or (if m.pendingFor r ≠ [] then some (measure (m.pendingFor r)) else none) := by
  rw [Mail.pendingGroups, List.foldl_map, Table.find?_foldl_insertOrIgnore fun r => measure (m.pendingFor r)]
  simp only [mem_pendingRecipients]

/-- Opening a store whose counters are exact changes no counter. -/
theorem Quotas.bootstrapPendingQuota (h : Quotas m [] b) : Quotas (bootstrapPendingQuota m) [] b := by
  have hinstall : (if m.pendingQuotaInstall.isNone ∧ 0 < (measure m.pendingRows).count then
      some (measure m.pendingRows) else m.pendingQuotaInstall) = m.pendingQuotaInstall := by
    refine if_neg ?_
    rintro ⟨hnone, hpos⟩
    have hi := h.install
    rw [readInstallQuota, Option.isNone_iff_eq_none.1 hnone, ← measure_pendingRows] at hi
    have := congrArg Prod.fst hi
    simp only [QuotaCounters.pair, Option.getD_none, List.length_nil, zero_nsmul, add_zero] at this
    omega
  unfold Punaro.bootstrapPendingQuota
  rw [hinstall]
  refine ⟨h.install, ?_, ?_⟩
  · intro r q hq
    rw [foldl_pendingGroups] at hq
    rw [usage_counters]
    cases hr : m.pendingQuotaRecipients.find? r with
    | some old =>
      rw [hr, Option.some_or] at hq
      exact h.charged (hr.trans hq)
    | none =>
      rw [hr, Option.none_or] at hq
      split at hq
      · cases hq
        simpa using measure_pendingFor m r
      · cases hq
  · intro r hr
    rw [usage_counters] at hr
    obtain ⟨q, hq⟩ := Option.isSome_iff_exists.1 (h.covered hr)
    simp [foldl_pendingGroups, hq]

/-- The rebuilt counters are exact whatever they were. -/
theorem Quotas.of_reconcile (m : Mail) (b : ℕ) : Quotas (reconcilePendingQuota m) [] b := by
  unfold reconcilePendingQuota
  refine ⟨?_, ?_, ?_⟩
  · rw [usage_counters]
    simpa [readInstallQuota] using measure_pendingRows m
  · intro r q hq
    rw [foldl_pendingGroups, Table.find?_empty, Option.none_or] at hq
    rw [usage_counters]
    split at hq
    · cases hq
      simpa using measure_pendingFor m r
    · cases hq
  · rintro r (hr | hr)
    · rw [usage_counters] at hr
      rw [foldl_pendingGroups, if_pos fun h => hr (usage_eq_zero_of_pendingFor h)]
      rfl
    · cases hr

end Punaro
