import Mathlib.Data.List.Basic

/-!
# Names, labels and instants

The textual predicates that guard every request (`internal/relay/backend.go`), and
the instants the relay stores.

* Strings are valid UTF-8 text, so `utf8.ValidString` always holds of them.
* An instant is a number of nanoseconds since the Unix epoch; a column stores
  `unixMilli` of it, the millisecond it falls in.
-/

namespace Punaro

/-! ## Instants -/

/-- `time.Time.UnixMilli`: the millisecond an instant falls in. -/
def unixMilli (t : Int) : Int := t / 1000000

/-- `time.Time.Truncate(time.Millisecond)`. -/
def truncateMilli (t : Int) : Int := unixMilli t * 1000000

/-- `fromMillis`: the instant at which a millisecond starts. -/
def fromMillis (ms : Int) : Int := ms * 1000000

/-- Go's zero `time.Time`: January 1 of the year 1, UTC. -/
def zeroTime : Int := -62135596800 * 1000000000

@[simp] theorem unixMilli_fromMillis (ms : Int) : unixMilli (fromMillis ms) = ms := by
  unfold unixMilli fromMillis; omega

@[simp] theorem unixMilli_truncateMilli (t : Int) : unixMilli (truncateMilli t) = unixMilli t :=
  unixMilli_fromMillis (unixMilli t)

theorem unixMilli_mono {t t' : Int} (h : t ≤ t') : unixMilli t ≤ unixMilli t' := by
  unfold unixMilli; omega

/-! ## Characters -/

/-- `unicode.IsSpace`: the White_Space property. -/
def isSpace (c : Char) : Bool :=
  let n := c.toNat
  (9 ≤ n && n ≤ 13) || n == 0x20 || n == 0x85 || n == 0xA0 || n == 0x1680 ||
    (0x2000 ≤ n && n ≤ 0x200A) || n == 0x2028 || n == 0x2029 || n == 0x202F || n == 0x205F || n == 0x3000

/-- `unicode.IsControl`: the category Cc. -/
def isControl (c : Char) : Bool := c.toNat ≤ 0x1F || (0x7F ≤ c.toNat && c.toNat ≤ 0x9F)

/-- `strings.TrimSpace`. -/
def trimSpace (s : String) : String :=
  String.ofList ((s.toList.dropWhile isSpace).reverse.dropWhile isSpace).reverse

/-! ## Bounded identifiers -/

def validBoundedText (value : String) (maxCharacters maxBytes : Nat) : Bool :=
  value != "" && trimSpace value == value && value.utf8ByteSize ≤ maxBytes &&
    value.length ≤ maxCharacters && value.toList.all fun c => !isControl c

def validMachineID (value : String) : Bool := validBoundedText value 128 512

def validEndpoint (value : String) : Bool := validBoundedText value 512 2048

def validRole (value : String) : Bool := validBoundedText value 512 2048

def validRequestToken (value : String) : Bool := validBoundedText value 128 512

def maxMessageBodyBytes : Nat := 32 * 1024

def validMessageBody (value : String) : Bool :=
  value.utf8ByteSize ≤ maxMessageBodyBytes && value.toList.all fun c => c.toNat != 0

/-! ## Roles -/

/-- `canonicalRoleSlug`: `^[a-z0-9][a-z0-9-]{0,62}$`. -/
def canonicalRoleSlugMatches (slug : String) : Bool :=
  let alnum := fun c : Char => c.isLower || c.isDigit
  match slug.toList with
  | [] => false
  | c :: cs => alnum c && cs.all (fun c => alnum c || c == '-') && cs.length ≤ 62

/-- The machine and the slug of a `role/<machine>/<slug>` handle: `strings.CutPrefix` of `role/`, then
`strings.Cut` at the first slash. -/
def cutRoleHandle (role : String) : Option (String × String) :=
  match "role/".toList.isPrefixOf? role.toList with
  | none => none
  | some rest =>
    match rest.dropWhile (· != '/') with
    | [] => none
    | _ :: slug => some (String.ofList (rest.takeWhile (· != '/')), String.ofList slug)

def canonicalRoleHandle (role : String) : Bool :=
  validRole role &&
    match cutRoleHandle role with
    | none => false
    | some (machine, slug) =>
      slug.toList.all (· != '/') && validMachineID machine && canonicalRoleSlugMatches slug

def canonicalRoleForMachine (role machineID : String) : Bool :=
  validMachineID machineID && canonicalRoleHandle role &&
    match cutRoleHandle role with
    | none => false
    | some (machine, _) => machine == machineID

def orderedDirectRolePair (left right : String) : Option (String × String) :=
  if !canonicalRoleHandle left || !canonicalRoleHandle right || left == right then none
  else if left < right then some (left, right)
  else some (right, left)

/-- The internal recipient key of a durable role. -/
def roleRecipient (role : String) : String := "\x1erole:" ++ role

def parseRoleRecipient (value : String) : Option String :=
  match "\x1erole:".toList.isPrefixOf? value.toList with
  | none => none
  | some rest => if validRole (String.ofList rest) then some (String.ofList rest) else none

theorem roleRecipient_toList (role : String) : (roleRecipient role).toList = "\x1erole:".toList ++ role.toList := by
  simp [roleRecipient]

@[simp] theorem roleRecipient_inj {role role' : String} : roleRecipient role = roleRecipient role' ↔ role = role' := by
  simp [roleRecipient]

/-- A role key starts with a control character, so it is never an endpoint. -/
theorem validEndpoint_ne_roleRecipient {endpoint : String} (h : validEndpoint endpoint) (role : String) :
    endpoint ≠ roleRecipient role := by
  rintro rfl
  simp only [validEndpoint, validBoundedText, Bool.and_eq_true, roleRecipient_toList] at h
  have hcontrol := h.2
  simp [isControl] at hcontrol

theorem parseRoleRecipient_roleRecipient {role : String} (h : validRole role) :
    parseRoleRecipient (roleRecipient role) = some role := by
  have hpre : "\x1erole:".toList.isPrefixOf? (roleRecipient role).toList = some role.toList := by
    rw [List.isPrefixOf?_eq_some_iff_append_eq, roleRecipient_toList]
  rw [parseRoleRecipient, hpre]
  simp [h]

theorem parseRoleRecipient_eq_some {value role : String} (h : parseRoleRecipient value = some role) :
    value = roleRecipient role := by
  unfold parseRoleRecipient at h
  split at h
  · cases h
  · rename_i rest hrest
    rw [List.isPrefixOf?_eq_some_iff_append_eq] at hrest
    split at h
    · cases h
      apply String.toList_injective
      rw [roleRecipient_toList, ← hrest]
      simp
    · cases h

theorem parseRoleRecipient_endpoint {endpoint : String} (h : validEndpoint endpoint) :
    parseRoleRecipient endpoint = none := by
  rw [Option.eq_none_iff_forall_ne_some]
  intro role hrole
  exact validEndpoint_ne_roleRecipient h role (parseRoleRecipient_eq_some hrole)

/-! ## Labels -/

def telegramGatewayEndpoint : String := "telegram/primary"

def telegramPrimaryEndpoint : String := telegramGatewayEndpoint

def telegramUserParticipant : String := "user-telegram"

def telegramCodexRole : String := "role/telegram-codex"

def reservedRelayMember (value : String) : Bool :=
  value == telegramUserParticipant || value == telegramGatewayEndpoint

/-- An optional role display name, trimmed; `none` when it does not fit. -/
def normalizeRoleDisplayName (value : String) : Option String :=
  let trimmed := trimSpace value
  if trimmed == "" then some ""
  else if validBoundedText trimmed 128 128 then some trimmed
  else none

def maxConversationDisplayNameRunes : Nat := 128

def maxConversationDisplayNameBytes : Nat := 512

/-- The loop of `SanitizeConversationDisplayName` that drops the last character while the label is too
long. The characters come last first. -/
def clampBytes : List Char → List Char
  | [] => []
  | c :: cs =>
    if (String.ofList (c :: cs).reverse).utf8ByteSize ≤ maxConversationDisplayNameBytes then c :: cs
    else clampBytes cs

/-- `none` is the error `invalid conversation display name`. -/
def sanitizeConversationDisplayName (value : String) : Option String :=
  if value == "" then some ""
  else if value.toList.any fun c => c.toNat == 0 || isControl c then none
  else
    let trimmed := trimSpace value
    if trimmed == "" then none
    else
      let clamped := String.ofList
        (clampBytes (trimmed.toList.take maxConversationDisplayNameRunes).reverse).reverse
      if clamped == "" then none else some clamped

end Punaro
