import Mathlib.Data.List.Infix
import Punaro.Lib.Outcome
import Punaro.Relay.Text

/-!
# Enrolled machines

`NewAuthenticator` (`internal/relay/auth.go`) takes the complete list of enrolled
machines, each with the endpoints it may act as and the beginnings of others. Go
compares the bytes of two texts, and an endpoint that is asked for may be any bytes.
-/

namespace Punaro

open Outcome

structure Machine where
  id : String
  publicKey : List UInt8
  /-- All zero when the machine has no device. -/
  attachmentDeviceID : BitVec 128
  endpointPrefixes : List String
  endpoints : List String
deriving DecidableEq

/-- The bytes of a text. -/
def textBytes (s : String) : List UInt8 := s.toUTF8.data.toList

/-- `strings.HasPrefix`. -/
def hasPrefix (s start : List UInt8) : Bool := start.isPrefixOf s

def validEndpointPrefix (start : String) : Bool :=
  validEndpoint start && start != "/" && ['/'].isSuffixOf start.toList && !decide (['/', '/'] <:+: start.toList)

/-- `machineOwnsEndpoint`. -/
def machineOwnsEndpoint (machine : Machine) (endpoint : List UInt8) : Bool :=
  (machine.endpoints.any fun exact => endpoint == textBytes exact) ||
    machine.endpointPrefixes.any fun start => hasPrefix endpoint (textBytes start)

/-- The exact endpoints are valid and there is no duplicate. -/
def checkExactEndpoints (id : String) : List String → List String → Except String Unit
  | _, [] => .ok ()
  | seen, endpoint :: rest => do
    require (validEndpoint endpoint) ("invalid exact endpoint for machine " ++ id.quote)
    require (endpoint ∉ seen) ("duplicate exact endpoint for machine " ++ id.quote)
    checkExactEndpoints id (endpoint :: seen) rest

/-- An enrollment is checked against those before it. -/
def enroll (configured : List Machine) (machine : Machine) : Except String (List Machine) := do
  require (validMachineID machine.id ∧ machine.publicKey.length = 32 ∧
    ¬(machine.endpointPrefixes = [] ∧ machine.endpoints = [])) "invalid machine enrollment"
  require (∀ prior ∈ configured, prior.id ≠ machine.id) ("duplicate machine enrollment " ++ machine.id.quote)
  if machine.attachmentDeviceID ≠ 0 then
    if let some prior := configured.find? fun prior => prior.attachmentDeviceID == machine.attachmentDeviceID then
      throw ("attachment device is bound to both machines " ++ prior.id.quote ++ " and " ++ machine.id.quote)
  require (machine.endpointPrefixes.all validEndpointPrefix)
    ("invalid endpoint prefix for machine " ++ machine.id.quote)
  checkExactEndpoints machine.id [] machine.endpoints
  return configured ++ [machine]

/-- Two machines share no endpoint: no beginning of one starts with one of the other, and no exact
endpoint of one is the other's. -/
def checkDisjoint (left right : Machine) : Except String Unit := do
  let both := left.id.quote ++ " and " ++ right.id.quote
  left.endpointPrefixes.forM fun l => right.endpointPrefixes.forM fun r =>
    require (¬(hasPrefix (textBytes l) (textBytes r) ∨ hasPrefix (textBytes r) (textBytes l)))
      ("overlapping endpoint namespaces for machines " ++ both)
  left.endpoints.forM fun endpoint => require (¬machineOwnsEndpoint right (textBytes endpoint))
    ("exact endpoint " ++ endpoint.quote ++ " is owned by both machines " ++ both)
  right.endpoints.forM fun endpoint => require (¬machineOwnsEndpoint left (textBytes endpoint))
    ("exact endpoint " ++ endpoint.quote ++ " is owned by both machines " ++ both)

structure Authenticator where
  machines : List Machine
deriving DecidableEq

/-- `NewAuthenticator`, which has no transition authority. The pairs are visited in the order of the
enrollments; in the source the order is that of a map, and decides which of several errors is reported. -/
def newAuthenticator (machines : List Machine) : Except String Authenticator := do
  let configured ← machines.foldlM enroll []
  configured.forM fun left => configured.forM fun right =>
    if left.id < right.id then checkDisjoint left right else pure ()
  return ⟨configured⟩

def Authenticator.allowsEndpoint (a : Authenticator) (machineID : String) (endpoint : List UInt8) : Bool :=
  (a.machines.find? fun machine => machine.id == machineID).any fun machine => machineOwnsEndpoint machine endpoint

end Punaro
