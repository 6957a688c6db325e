import Punaro.Lib.Program
import Punaro.Release.Names

/-!
# The device authentication cache

A device presents an encoded credential. `DeviceAuthCache.Authenticate` asks the
store and remembers a positive answer for a short while; a long-lived session polls
`DeviceSession.Current`, which asks the store again once the answer it has is that
old (`internal/postgres/device_cache.go`).

The sections under the cache's mutex are single calls, and so is every question to
the store and every reading of the clock; whatever else happens may happen between
two of them. `Current` holds the mutex of its session from beginning to end. That
mutex is left out, which only adds runs.
-/

namespace Punaro.Postgres

abbrev Bytes := List UInt8

/-- The packages the authentication rests on. -/
structure Env where
  sha256 : Bytes → Bytes
  /-- The text is a canonical UUID other than the nil one. -/
  validOpaqueID : String → Bool
  /-- `base64.RawURLEncoding.Strict().DecodeString`. -/
  decodeString : String → Option Bytes
  /-- `base64.RawURLEncoding.EncodeToString`. -/
  encodeToString : Bytes → String

inductive Failure where
  | unauthenticated
  | notRevalidated
deriving DecidableEq

/-! ## The store -/

structure AuthenticatedDevice where
  principalID : String
  lookupID : String
  generation : Int
deriving DecidableEq

/-- A credential as both queries join it. -/
structure CredentialRow where
  secretDigest : Bytes
  principalID : String
  generation : Int
  /-- Neither revoked nor expired, of an enabled principal and an active client, with equal generations. -/
  active : Bool
deriving DecidableEq

/-- The credentials by lookup id, or nothing while the database does not answer. -/
abbrev DeviceAuthStore := Option (Table String CredentialRow)

variable (E : Env)

def parseDeviceCredential (encoded : String) : Option (String × Bytes) := do
  let (lookupID, secretText) ← Release.cut ['.'] encoded.toList
  let lookupID := String.ofList lookupID
  let secretText := String.ofList secretText
  if !E.validOpaqueID lookupID || secretText.toList.contains '=' then none
  else
    let secret ← E.decodeString secretText
    if secret.length != 32 || E.encodeToString secret != secretText then none else some (lookupID, secret)

def authenticateDevice (store : DeviceAuthStore) (encoded : String) : Except Failure AuthenticatedDevice :=
  match parseDeviceCredential E encoded with
  | none => .error .unauthenticated
  | some (lookupID, secret) =>
    match store.bind (·.find? lookupID) with
    | none => .error .unauthenticated
    | some row =>
      if !row.active || row.secretDigest != E.sha256 secret then .error .unauthenticated
      else .ok ⟨row.principalID, lookupID, row.generation⟩

def deviceSessionCurrent (store : DeviceAuthStore) (authenticated : AuthenticatedDevice) : Except Failure Bool :=
  if !E.validOpaqueID authenticated.principalID || !E.validOpaqueID authenticated.lookupID ||
      authenticated.generation < 1 then .ok false
  else
    match store with
    | none => .error .notRevalidated
    | some rows =>
      match rows.find? authenticated.lookupID with
      | none => .ok false
      | some row => .ok (row.principalID == authenticated.principalID &&
          row.generation == authenticated.generation && row.active)

/-! ## The cache -/

/-- `2 * time.Second`, in nanoseconds. -/
def deviceRevalidationBound : Int := 2000000000

def maxDeviceAuthCacheEntries : Nat := 1024

structure CachedDevice where
  auth : AuthenticatedDevice
  expiresAt : Int

structure DeviceAuthCache where
  ttl : Int
  entries : Table Bytes CachedDevice

def newDeviceAuthCache (ttl : Int) : DeviceAuthCache :=
  ⟨if ttl ≤ 0 || ttl > deviceRevalidationBound then deviceRevalidationBound else ttl, .empty⟩

namespace DeviceAuthCache

/-- The first section of `Authenticate`: the entry at the key before its deadline, which is deleted otherwise. -/
def lookup (c : DeviceAuthCache) (key : Bytes) (now : Int) : DeviceAuthCache × Option AuthenticatedDevice :=
  match (c.entries.find? key).filter fun entry => now < entry.expiresAt with
  | some entry => (c, some entry.auth)
  | none => ({ c with entries := c.entries.deleteWhere fun k _ => k == key }, none)

/-- The entry that makes room: the one that expires first, the smallest key among equals. -/
def victim : List (Bytes × CachedDevice) → Option (Bytes × CachedDevice) :=
  List.foldl (fun victim cached =>
    match victim with
    | none => some cached
    | some victim =>
      if cached.2.expiresAt < victim.2.expiresAt ||
          (cached.2.expiresAt == victim.2.expiresAt && decide (cached.1 < victim.1)) then some cached
      else some victim) none

/-- The second section of `Authenticate`. -/
def insert (c : DeviceAuthCache) (key : Bytes) (now : Int) (authenticated : AuthenticatedDevice) : DeviceAuthCache :=
  let live := c.entries.deleteWhere fun _ cached => !decide (now < cached.expiresAt)
  let room :=
    if live.rows.length ≥ maxDeviceAuthCacheEntries then
      match victim live.rows with
      | some victim => live.deleteWhere fun k _ => k == victim.1
      | none => live
    else live
  { c with entries := room.put key ⟨authenticated, now + c.ttl⟩ }

def invalidate (c : DeviceAuthCache) (lookupID : String) : DeviceAuthCache :=
  { c with entries := c.entries.deleteWhere fun _ entry => entry.auth.lookupID == lookupID }

end DeviceAuthCache

structure DeviceSession where
  auth : AuthenticatedDevice
  nextCheck : Int
  closed : Bool

/-! ## Calls -/

/-- What happens in one step. -/
inductive Call where
  | now
  | lookup (key : Bytes) (now : Int)
  | authenticateDevice (encoded : String)
  | insert (key : Bytes) (now : Int) (authenticated : AuthenticatedDevice)
  | invalidate (lookupID : String)
  | newSession (authenticated : AuthenticatedDevice) (now : Int)
  | session (id : Nat)
  | deviceSessionCurrent (authenticated : AuthenticatedDevice)
  | close (id : Nat)
  | renew (id : Nat) (now : Int)

abbrev Call.Result : Call → Type
  | .now => Int
  | .lookup .. => Option AuthenticatedDevice
  | .authenticateDevice _ => Except Failure AuthenticatedDevice
  | .newSession .. => Nat
  | .session _ => Option DeviceSession
  | .deviceSessionCurrent _ => Except Failure Bool
  | _ => Unit

/-- The process with its clock, and the store it asks. -/
structure World where
  clock : Int
  store : DeviceAuthStore
  cache : DeviceAuthCache
  sessions : List DeviceSession

/-- One session changes. -/
def World.setSession (w : World) (id : Nat) (f : DeviceSession → DeviceSession) : World :=
  { w with sessions := w.sessions.modify id f }

def World.answer (_ : Unit) (w : World) : (c : Call) → World × c.Result
  | .now => (w, w.clock)
  | .lookup key now => ({ w with cache := (w.cache.lookup key now).1 }, (w.cache.lookup key now).2)
  | .authenticateDevice encoded => (w, authenticateDevice E w.store encoded)
  | .insert key now authenticated => ({ w with cache := w.cache.insert key now authenticated }, ())
  | .invalidate lookupID => ({ w with cache := w.cache.invalidate lookupID }, ())
  | .newSession authenticated now =>
    ({ w with sessions := w.sessions ++ [⟨authenticated, now + w.cache.ttl, false⟩] }, w.sessions.length)
  | .session id => (w, w.sessions[id]?)
  | .deviceSessionCurrent authenticated => (w, deviceSessionCurrent E w.store authenticated)
  | .close id => (w.setSession id fun s => { s with closed := true }, ())
  | .renew id now => (w.setSession id fun s => { s with nextCheck := now + w.cache.ttl }, ())

/-- Int passes, or the store commits whatever it likes. -/
inductive Move where
  | tick (elapsed : Nat)
  | commit (store : DeviceAuthStore)

def World.move : Move → World → World
  | .tick elapsed, w => { w with clock := w.clock + elapsed }
  | .commit store, w => { w with store }

/-! ## Programs -/

abbrev Act := Prog Call Call.Result Failure

/-- One step. -/
abbrev Call.made (c : Call) : Act c.Result := Prog.perform c

/-- The key of a credential in the cache. -/
def cacheKey (encoded : String) : Bytes := E.sha256 encoded.toUTF8.data.toList

def authenticate (encoded : String) : Act AuthenticatedDevice := do
  let key := cacheKey E encoded
  let now ← Call.now.made
  match ← (Call.lookup key now).made with
  | some auth => pure auth
  | none =>
    match ← (Call.authenticateDevice encoded).made with
    | .error err => .fail err
    | .ok authenticated =>
      (Call.insert key now authenticated).made
      pure authenticated

def newSession (authenticated : AuthenticatedDevice) : Act Nat := do
  let now ← Call.now.made
  (Call.newSession authenticated now).made

def current (id : Nat) : Act Bool := do
  match ← (Call.session id).made with
  | none => pure false
  | some s =>
    if s.closed then pure false
    else
      let now ← Call.now.made
      if now < s.nextCheck then pure true
      else
        match ← (Call.deviceSessionCurrent s.auth).made with
        | .error err => .fail err
        | .ok false =>
          (Call.close id).made
          (Call.invalidate s.auth.lookupID).made
          pure false
        | .ok true =>
          (Call.renew id now).made
          pure true

/-- What is called, by any number of callers. A session is opened on the authentication just returned. -/
inductive Request where
  | authenticate (encoded : String)
  | openSession (encoded : String)
  | current (id : Nat)
  | invalidate (lookupID : String)

/-- How a call has ended, with the clock when it started. -/
inductive Reply where
  | authenticated (encoded : String) (started : Int) (auth : AuthenticatedDevice)
  | opened (id : Nat)
  | current (id : Nat) (started : Int) (current : Bool)
  | invalidated (lookupID : String)
deriving DecidableEq

def serve : Request → Act Reply
  | .authenticate encoded => do
    let started ← Call.now.made
    let auth ← authenticate E encoded
    pure (.authenticated encoded started auth)
  | .openSession encoded => do
    let auth ← authenticate E encoded
    let id ← newSession auth
    pure (.opened id)
  | .current id => do
    let started ← Call.now.made
    let current ← current id
    pure (.current id started current)
  | .invalidate lookupID => do
    (Call.invalidate lookupID).made
    pure (.invalidated lookupID)

/-- The process: callers of the cache and its sessions, in any interleaving. -/
def process : System World Call Call.Result Failure Reply Request Unit Move where
  main := serve E
  act := World.answer E
  env := World.move

/-- The process with the calls it is serving. -/
abbrev Running (ι : Type) := Config ι World Call Call.Result Failure Reply

/-- A process that has just started. -/
def World.fresh (clock : Int) (store : DeviceAuthStore) (ttl : Int) : World :=
  ⟨clock, store, newDeviceAuthCache ttl, []⟩

end Punaro.Postgres
