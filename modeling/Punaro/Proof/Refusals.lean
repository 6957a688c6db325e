import Punaro.Proof.Steps

/-!
# No call finds the counters inconsistent

`releaseQuota` is the only function that reports inconsistent counters. Most
functions never call it, so none of their errors is that report; the callers that do
release (acknowledging, maintenance, revoking, dropping a role) release what is
owed. Together: `step_quotaSafe`.
-/

namespace Punaro

open Outcome

section

variable {E : Env} {s : Store} {p : Presence} {r : Rooms} {m : Mail} {i : Invocations} {ids : FreshIDs}
  {c id role endpoint session machineID consumerID key requestHash fence context token : String}
  {now ttl limit generation : Int} {input : CreateConversationInput} {endpoints roles : List String}

/-! ## Guards -/

@[simp] theorem endpointOwnershipUntil_quotaSafe :
    OnError QuotaSafe (endpointOwnershipUntil p endpoint machineID now) := by
  unfold endpointOwnershipUntil
  split <;> simp

@[simp] theorem endpointOwnership_quotaSafe : OnError QuotaSafe (endpointOwnership p endpoint machineID now) := by
  simp [endpointOwnership]

@[simp] theorem endpointOwnedBy_quotaSafe : OnError QuotaSafe (endpointOwnedBy p endpoint machineID now) := by
  simp [endpointOwnedBy]

@[simp] theorem endpointActive_quotaSafe : OnError QuotaSafe (endpointActive p endpoint now) := by
  unfold endpointActive
  split <;> simp

@[simp] theorem claimRole_quotaSafe : OnError QuotaSafe (claimRole p role machineID) := by
  unfold claimRole
  split <;> simp

@[simp] theorem sessionCapabilities_quotaSafe :
    OnError QuotaSafe (sessionCapabilities p r c machineID endpoint now) := by
  simp [sessionCapabilities]

@[simp] theorem occupies_quotaSafe :
    OnError QuotaSafe (sessionOccupiesOtherExclusiveConversation p r endpoint c now) := by
  simp [sessionOccupiesOtherExclusiveConversation]

@[simp] theorem rejectExclusiveOccupants_quotaSafe : OnError QuotaSafe (rejectExclusiveOccupants p r c now) :=
  onError_forM (fun _ => occupies_quotaSafe) _

@[simp] theorem rejectExclusiveCreateOccupancy_quotaSafe :
    OnError QuotaSafe (rejectExclusiveCreateOccupancy p r endpoints roles now) :=
  onError_forM (fun _ => occupies_quotaSafe) _

@[simp] theorem requireAdmin_quotaSafe : OnError QuotaSafe (requireAdmin s c machineID endpoint now context) := by
  simp [requireAdmin]

@[simp] theorem consumeRateLimits_quotaSafe {cfg : RateLimitConfig} {t : RateBuckets} :
    OnError QuotaSafe (consumeRateLimits cfg t machineID c now) := by
  simp [consumeRateLimits]

@[simp] theorem consumeQuota_quotaSafe {cfg : QuotaConfig} {recipients : List String} {b : Nat} :
    OnError QuotaSafe (consumeQuota cfg m recipients b) := by
  simp [consumeQuota]

/-! ## Presence and invocations -/

theorem registerRoleProfile_quotaSafe {input : RegisterRoleInput} :
    OnError QuotaSafe (registerRoleProfile E s input) := by
  simp only [registerRoleProfile, onError_bind, onError_require, onError_ofOption]
  refine ⟨by simp, fun _ _ => ⟨by simp, fun _ _ => ?_⟩⟩
  split <;> simp

theorem checkEndpoints_quotaSafe {seen : List String} : OnError QuotaSafe (checkEndpoints seen endpoints) := by
  induction endpoints generalizing seen with
  | nil => simp [checkEndpoints]
  | cons e rest ih => simp [checkEndpoints, ih]

theorem advertiseEndpoints_quotaSafe : OnError QuotaSafe (advertiseEndpoints s machineID endpoints now ttl) := by
  simp only [advertiseEndpoints, onError_bind, onError_require, checkEndpoints_quotaSafe]
  refine ⟨by simp, fun _ _ => ⟨trivial, fun _ _ => ?_⟩⟩
  split <;> simp

theorem bindRoleToSession_quotaSafe : OnError QuotaSafe (bindRoleToSession s machineID role session now ttl) := by
  simp [bindRoleToSession, rejectExclusiveBindOccupancy]

theorem requestInvocationWithSchema_quotaSafe {input : InvokeInput} :
    OnError QuotaSafe (requestInvocationWithSchema s i input requestHash id fence) := by
  have hopen : ∀ i row context action,
      OnError QuotaSafe (openInvocation i input requestHash id row context action) := by
    intros
    simp [openInvocation, insertInvocation, insertInvocationIdempotency]
  unfold requestInvocationWithSchema
  simp only [onError_bind, endpointOwnedBy_quotaSafe, requireCapability, onError_require, true_and]
  refine fun _ _ => ⟨by simp, fun _ _ => ?_⟩
  split
  · simp [invocationByID]
  · simp only [onError_bind, onError_require, onError_ofOption, onError_ite, hopen]
    refine ⟨by simp, fun _ _ => ⟨by simp, fun _ _ => ⟨by simp, fun _ _ => ⟨by simp, fun _ => ?_⟩⟩⟩⟩
    split <;> simp [hopen, invocationByID, insertInvocationIdempotency]

theorem requestInvocation_quotaSafe {input : InvokeInput} :
    OnError QuotaSafe (requestInvocation E s input id fence).2 := by
  have hcheck : OnError QuotaSafe (checkInvocationRequest s input) := by
    simp [checkInvocationRequest, requireCapability]
  unfold requestInvocation
  split
  next e he => simpa using hcheck e he
  next =>
    dsimp only
    split
    next e he => simpa using requestInvocationWithSchema_quotaSafe e he
    next => simp

theorem leaseInvocations_quotaSafe {tokens : Nat → String} :
    OnError QuotaSafe (leaseInvocations s machineID consumerID now ttl limit tokens) := by
  unfold leaseInvocations
  split <;> simp

theorem reportInvocation_quotaSafe {accepted : Bool} :
    OnError QuotaSafe (reportInvocation s machineID id token generation accepted now) := by
  simp [reportInvocation, leasedInvocation]

theorem rejectInvocation_quotaSafe : OnError QuotaSafe (rejectInvocation s machineID id token generation now) := by
  simp [rejectInvocation, leasedInvocation]

theorem consumeRequestNonce_quotaSafe {t : Table (String × String) Int} {nonce : String} {expiresAt : Int} :
    OnError QuotaSafe (consumeRequestNonce t machineID nonce now expiresAt) := by
  simp [consumeRequestNonce]

/-! ## Rooms and claims -/

theorem createRoom_quotaSafe {displayName : String} :
    OnError QuotaSafe (createRoom s input endpoints roles displayName id) := by
  have hclaim : ∀ (p : Presence) (member : Member), OnError QuotaSafe
      (if member.role = "" then .ok p else claimRole p member.role member.roleMachineID) := by simp
  have hadd : ∀ (r : Rooms) (member : Member), OnError QuotaSafe (addMember id r member) := by
    simp [addMember]
  have hactive : OnError QuotaSafe (forM endpoints fun e => endpointActive s.presence e input.now) :=
    onError_forM (fun _ => endpointActive_quotaSafe) endpoints
  have hclaims := onError_foldlM_all hclaim input.members
  have hadds := onError_foldlM_all hadd input.members
  simp [createRoom, hactive, hclaims, hadds]

theorem createConversation_quotaSafe : OnError QuotaSafe (createConversation E s input id) := by
  have hcheck : ∀ (acc : List String × List String × Bool) (member : Member),
      OnError QuotaSafe (checkMember input.creatorEndpoint acc member) := by
    simp [checkMember]
  simp only [createConversation, onError_bind, onError_ofOption, onError_require, onError_ite,
    onError_foldlM_all hcheck]
  refine ⟨by simp, fun _ _ => ⟨by simp, fun _ _ => ⟨trivial, fun _ _ => ⟨by simp, fun _ _ => ⟨?_, ?_⟩⟩⟩⟩⟩
  · simp [createRoom_quotaSafe]
  · refine fun _ => ⟨by simp, fun _ _ => ?_⟩
    split <;> simp [createRoom_quotaSafe]

theorem setConversationDisplayName_quotaSafe {input : SetDisplayNameInput} :
    OnError QuotaSafe (setConversationDisplayName E s input) := by
  simp only [setConversationDisplayName, onError_bind, onError_ofOption, onError_require]
  refine ⟨by simp, fun _ _ => ⟨by simp, fun _ _ => ⟨by simp, fun _ _ => ⟨by simp, fun _ _ => ?_⟩⟩⟩⟩
  split <;> simp [rejectExclusiveRenameOccupancy]

theorem bindTelegramClaimIdempotency_quotaSafe {j : Journal} :
    OnError QuotaSafe (bindTelegramClaimIdempotency j machineID key c requestHash now) := by
  unfold bindTelegramClaimIdempotency
  split <;> simp

theorem reserveTelegramClaim_quotaSafe {input : TelegramClaimInput} :
    OnError QuotaSafe (reserveTelegramClaim E s input) := by
  simp only [reserveTelegramClaim, onError_bind, onError_ofOption, onError_require, onError_ite,
    onError_mapError]
  refine ⟨by simp, fun _ _ => ⟨by simp, fun _ _ => ⟨by simp, fun _ _ => ⟨by simp, fun _ _ => ⟨fun _ =>
    ⟨by simp, fun _ _ => ⟨by simp, fun _ _ => ?_⟩⟩, fun _ => ?_⟩⟩⟩⟩⟩ <;>
  · split
    · simp
    · split <;> simp [bindTelegramClaimIdempotency_quotaSafe, insertTelegramClaim, rejectExclusiveClaimOccupancy]

theorem completeTelegramClaim_quotaSafe {input : TelegramClaimCompleteInput} :
    OnError QuotaSafe (completeTelegramClaim s input id) := by
  have hmember : ∀ r m c, OnError QuotaSafe (ensureTelegramGatewayMembership r m c) := by
    intro r m c
    unfold ensureTelegramGatewayMembership
    split <;> simp [advanceRecipientCursor_error]
  simp [completeTelegramClaim, hmember]

/-! ## Messages -/

@[simp] theorem allocateSequence_quotaSafe {conversations : Table String ConversationRow} :
    OnError QuotaSafe (allocateSequence conversations c) := by
  simp [allocateSequence]

@[simp] theorem insertMessage_quotaSafe {row : MessageRow} : OnError QuotaSafe (insertMessage m id row context) := by
  simp [insertMessage]

@[simp] theorem insertDelivery_quotaSafe {messageID recipient : String} :
    OnError QuotaSafe (insertDelivery m id messageID recipient context) := by
  simp [insertDelivery]

@[simp] theorem advanceSessionCursors_quotaSafe :
    OnError QuotaSafe (advanceSessionCursors p r m machineID endpoint c now) := by
  simp [advanceSessionCursors, advanceRecipientCursor_error]

theorem writePosting_quotaSafe {post : Posting} : OnError QuotaSafe (writePosting s post ids) := by
  have hfan : ∀ conversations c context m recipients,
      OnError QuotaSafe (fanOut conversations c ids context m recipients) := by
    intro conversations c context m recipients
    refine onError_foldlM_all (fun m recipient => ?_) _ _
    simp [fanOutOne, advanceRecipientCursor_error]
  simp [writePosting, hfan]

theorem postMessage_quotaSafe {post : Posting} : OnError QuotaSafe (postMessage s post ids) := by
  unfold postMessage
  split <;> simp [messageByID, writePosting_quotaSafe]

theorem appendMessage_quotaSafe {input : AppendInput} : OnError QuotaSafe (appendMessage E s input ids) := by
  simp [appendMessage, rejectDirectConversationAppend, checkAppendTarget, requireCompleteTelegramClaim,
    postMessage_quotaSafe]

theorem appendTelegramInbound_quotaSafe {input : TelegramInboundInput} :
    OnError QuotaSafe (appendTelegramInbound E s input ids) := by
  simp [appendTelegramInbound, validateTelegramInbound, requireCompleteTelegramClaim, postMessage_quotaSafe]

theorem sendDirectMessage_quotaSafe {input : DirectMessageInput} {ids : DirectIDs} :
    OnError QuotaSafe (sendDirectMessage E s input ids) := by
  have hroom : ∀ r low high from_ to_ now id,
      OnError QuotaSafe (getOrCreateDirectConversation r low high from_ to_ now id) := by
    intro r low high from_ to_ now id
    simp only [getOrCreateDirectConversation, onError_bind, onError_ofOption]
    refine ⟨by simp, fun _ _ => ⟨onError_foldlM_all (by simp) _ _, fun _ _ => ?_⟩⟩
    split <;> simp
  have hwrite : ∀ r session c now, OnError QuotaSafe (writeDirectMessage s r input session c now ids) := by
    simp [writeDirectMessage, advanceRecipientCursor_error]
  simp only [sendDirectMessage, onError_bind, onError_ofOption, onError_require]
  refine ⟨by simp, fun _ _ => ⟨by simp, fun _ _ => ⟨by simp, fun _ _ => ⟨by simp, fun _ _ => ?_⟩⟩⟩⟩
  split <;> simp [messageByID, liveBoundRoleSession, hroom, hwrite]

theorem leaseDeliveries_quotaSafe {token : String → String} :
    OnError QuotaSafe (leaseDeliveries s machineID consumerID endpoint c now ttl limit token) := by
  have hcursor : ∀ r m recipientIDs id, OnError QuotaSafe (recipientCursorForLease r m recipientIDs id) := by
    simp [recipientCursorForLease]
  simp only [leaseDeliveries, onError_bind, onError_ofOption, onError_require]
  refine ⟨by simp, fun _ _ => ⟨by simp, fun _ _ => ⟨by simp, fun _ _ => ⟨by simp [claimConsumer],
    fun _ _ => ⟨onError_mapM _ fun _ _ => by simp [hcursor], by simp⟩⟩⟩⟩⟩

/-! ## Calls that release -/

theorem revokeReceive_quotaSafe (ok : StoreOK s) : OnError QuotaSafe (revokeReceive s endpoint c now) := by
  simp [revokeReceive, retireRecipientDeliveries_error ok.mail, advanceRecipientCursor_error]

theorem applyControl_quotaSafe (ok : StoreOK s) {input : ControlInput} :
    OnError QuotaSafe (applyControl E s input id) := by
  have hwrite : ∀ s c endpoint capabilities, OnError QuotaSafe (writeMember s c endpoint capabilities) := by
    simp [writeMember, advanceRecipientCursor_error]
  have hupsert : OnError QuotaSafe (upsertMember s input) := by
    unfold upsertMember
    split <;> simp [hwrite, revokeReceive_quotaSafe ok, checkNewMember, conversationIsExclusive]
  have hremove : OnError QuotaSafe (removeMember s input) := by
    simp [removeMember, revokeReceive_quotaSafe ok]
  simp only [applyControl, onError_bind, onError_require]
  refine ⟨by simp, fun _ _ => ⟨by simp, fun _ _ => ⟨by simp, fun _ _ => ⟨by simp, fun _ _ => ?_⟩⟩⟩⟩
  split
  · simp [controlEventByID]
  · split <;> simp [hupsert, hremove]

theorem prepareTelegramAdopt_quotaSafe (ok : StoreOK s) {input : AdoptPrepareInput} {wallClock : Int} :
    OnError QuotaSafe (prepareTelegramAdopt s input wallClock) := by
  have hoccupancy : ∀ p r c now, OnError QuotaSafe (rejectAdoptPrepareOccupancy p r c now) := by
    simp [rejectAdoptPrepareOccupancy, rejectExclusiveRenameOccupancy]
  have hrole : ∀ r c role, OnError QuotaSafe (requireRoleMembership r c role) := by
    simp [requireRoleMembership]
  simp only [prepareTelegramAdopt, onError_bind, onError_require, onError_ofOption, onError_pure, hrole,
    hoccupancy, retireRecipientDeliveries_error ok.mail, advanceRecipientCursor_error]
  simp

theorem ackDelivery_quotaSafe (ok : StoreOK s) {deliveryID : String} :
    OnError QuotaSafe (ackDelivery s machineID endpoint deliveryID token generation now) := by
  simp only [ackDelivery, onError_bind, onError_ofOption, onError_require, onError_ite, ok_rules]
  refine ⟨by simp, fun _ _ => ⟨by simp, fun d hd => ⟨by simp, fun _ _ => ⟨by simp, fun hopen =>
    ⟨by simp, fun row _ => ⟨by simp, fun _ hmatches => ⟨?_, by simp⟩⟩⟩⟩⟩⟩⟩
  obtain ⟨message, hm⟩ := ok.mail.inv.sent hd
  have hj : (⟨deliveryID, d, message⟩ : JoinedRow) ∈ s.mail.joined := mem_joined.2 ⟨hd, hm⟩
  have hclose := closeAcked_error now ok.mail hj (hmatches.pending hopen)
  exact hclose

/-! ## Every call -/

/-- **No call is refused because the counters are inconsistent.** -/
theorem step_quotaSafe (ok : StoreOK s) (op : Op) {e : Err} (h : (step E s op).2 = .refused e) : QuotaSafe e := by
  unfold step at h
  cases op with
  | registerRoleProfile => exact registerRoleProfile_quotaSafe e (commit_refused (by simp) h)
  | advertiseEndpoints => exact advertiseEndpoints_quotaSafe e (commitDone_refused h)
  | bindRoleToSession => exact bindRoleToSession_quotaSafe e (commitDone_refused h)
  | createConversation => exact createConversation_quotaSafe e (commit_refused (by simp) h)
  | createConversationIdempotent input id =>
    have hsafe : OnError QuotaSafe (createConversationIdempotent E s input id) := by
      simp [createConversationIdempotent, createConversation_quotaSafe]
    exact hsafe e (commit_refused (by simp) h)
  | applyControl => exact applyControl_quotaSafe ok e (commit_refused (by simp) h)
  | setConversationDisplayName => exact setConversationDisplayName_quotaSafe e (commit_refused (by simp) h)
  | reserveTelegramClaim => exact reserveTelegramClaim_quotaSafe e (commit_refused (by simp) h)
  | completeTelegramClaim => exact completeTelegramClaim_quotaSafe e (commit_refused (by simp) h)
  | prepareTelegramAdopt => exact prepareTelegramAdopt_quotaSafe ok e (commitDone_refused h)
  | appendMessage => exact appendMessage_quotaSafe e (commit_refused (by simp) h)
  | appendTelegramInbound => exact appendTelegramInbound_quotaSafe e (commit_refused (by simp) h)
  | sendDirectMessage => exact sendDirectMessage_quotaSafe e (commit_refused (by simp) h)
  | leaseDeliveries => exact leaseDeliveries_quotaSafe e (commit_refused (by simp) h)
  | ackDelivery => exact ackDelivery_quotaSafe ok e (commitDone_refused h)
  | maintainDeliveries now =>
    obtain ⟨m', -, -, -, hsafe⟩ := maintainDeliveries_spec now ok.mail
    dsimp only at h
    split at h
    · cases h
    · rename_i s' result _ heq
      cases h
      exact hsafe e (by rw [heq])
  | consumeRequestNonce =>
    exact onError_exceptMap.2 consumeRequestNonce_quotaSafe e (commitDone_refused h)
  | requestInvocation input id fence =>
    have hsafe : OnError QuotaSafe (requestInvocation E s input id fence).2 := requestInvocation_quotaSafe
    dsimp only at h
    split at h
    · cases h
    · rename_i i _ heq
      cases h
      exact hsafe e (by rw [heq])
  | leaseInvocations => exact onError_exceptMap.2 leaseInvocations_quotaSafe e (commit_refused (by simp) h)
  | reportInvocation => exact onError_exceptMap.2 reportInvocation_quotaSafe e (commitDone_refused h)
  | rejectInvocation => exact onError_exceptMap.2 rejectInvocation_quotaSafe e (commitDone_refused h)
  | reconcilePendingQuota | reopen => cases h
  | setRateLimits cfg =>
    have hsafe : OnError QuotaSafe cfg.validate := by simp [RateLimitConfig.validate, boundedInt]
    exact onError_exceptMap.2 hsafe e (commitDone_refused h)
  | setQuotaLimits cfg =>
    have hsafe : OnError QuotaSafe cfg.validate := by simp [QuotaConfig.validate, boundedInt]
    exact onError_exceptMap.2 hsafe e (commitDone_refused h)
  | setRetentionPolicy cfg =>
    have hsafe : OnError QuotaSafe cfg.validate := by simp [RetentionConfig.validate, boundedInt]
    exact onError_exceptMap.2 hsafe e (commitDone_refused h)

end

end Punaro
