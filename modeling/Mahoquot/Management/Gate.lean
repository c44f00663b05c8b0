import Mahoquot.Compat.Value

/-! The gate before the management interface. Attempts are counted for each peer address;
checking the address, comparing the key and recording the outcome are separate steps. -/

set_option autoImplicit false

namespace Mahoquot.Management
open Library

inductive IpAddr where
  | v4 (bits : UInt32)
  | v6 (bits : BitVec 128)
deriving DecidableEq

def IpAddr.isLocalhost : IpAddr → Bool
  | .v4 bits => bits == 0x7f000001
  | .v6 bits => bits == 1

/-- Times are nanoseconds of a clock that never goes back. -/
def seconds (count : Nat) : Nat := count * 1000000000

def maxFailures : Nat := 5

def banDuration : Nat := seconds (30 * 60)

def idleLimit : Nat := seconds (2 * 3600)

inductive StatusCode where
  | forbidden
  | unauthorized
  | serviceUnavailable
  | notFound
deriving DecidableEq, Repr

structure Denial where
  status : StatusCode
  error : String
deriving DecidableEq, Repr

/-- What is kept of an address: failures since the last success, the end of a ban,
and the last failure. -/
structure IpRecord where
  failures : Nat
  ban : Option Nat
  activity : Nat
deriving DecidableEq, Repr

structure ManagementAttempts where
  ips : IpAddr → Option IpRecord
  verifiers : Nat

namespace ManagementAttempts

def new : ManagementAttempts where
  ips := fun _ => none
  verifiers := 128

def retains (now : Nat) (record : IpRecord) : Bool :=
  record.ban.any (fun ends => now < ends) || decide (now - record.activity ≤ idleLimit)

variable (attempts : ManagementAttempts)

def setIp (peer : IpAddr) (record : Option IpRecord) : ManagementAttempts :=
  { attempts with ips := fun ip => if ip = peer then record else attempts.ips ip }

def retain (now : Nat) : ManagementAttempts :=
  { attempts with ips := fun ip => (attempts.ips ip).filter (retains now) }

def banned (ends now : Nat) : Denial where
  status := .forbidden
  error := "IP banned due to too many failed attempts. Try again in " ++
    toString ((ends - now) / seconds 1) ++ "s"

def remoteDisabled : Denial := ⟨.forbidden, "remote management disabled"⟩

/-- Whether the address may try at all. The check of a ban that is over ends it. -/
def preflight (peer : IpAddr) (allowRemote : Bool) (now : Nat) : ManagementAttempts × Except Denial Unit :=
  let attempts := attempts.retain now
  let remote : Except Denial Unit := if !peer.isLocalhost && !allowRemote then .error remoteDisabled else .ok ()
  match attempts.ips peer with
  | some ⟨_, some ends, activity⟩ =>
    if now < ends then (attempts, .error (banned ends now))
    else (attempts.setIp peer (some ⟨0, none, activity⟩), remote)
  | _ => (attempts, remote)

/-- The check before a key is compared. It takes one of the verifiers. -/
def beginVerification (peer : IpAddr) (allowRemote : Bool) (now : Nat) : ManagementAttempts × Except Denial Unit :=
  match attempts.preflight peer allowRemote now with
  | (attempts, .error denial) => (attempts, .error denial)
  | (attempts, .ok ()) =>
    if attempts.verifiers = 0 then
      (attempts, .error ⟨.serviceUnavailable, "management verifier busy"⟩)
    else ({ attempts with verifiers := attempts.verifiers - 1 }, .ok ())

def release : ManagementAttempts :=
  { attempts with verifiers := attempts.verifiers + 1 }

/-- One more failure of an address, and the ban it may bring. -/
def recordFailure (record : Option IpRecord) (now : Nat) : IpRecord :=
  let before := record.getD ⟨0, none, now⟩
  if maxFailures ≤ before.failures + 1 then ⟨0, some (now + banDuration), now⟩
  else ⟨before.failures + 1, before.ban, now⟩

def authenticate (peer : IpAddr) (allowRemote valid missing : Bool)
    (now : Nat) : ManagementAttempts × Except Denial Unit :=
  match attempts.preflight peer allowRemote now with
  | (attempts, .error denial) => (attempts, .error denial)
  | (attempts, .ok ()) =>
    if valid then (attempts.setIp peer none, .ok ())
    else
      (attempts.setIp peer (some (recordFailure (attempts.ips peer) now)), .error ⟨.unauthorized,
          if missing then "missing management key" else "invalid management key"⟩)

end ManagementAttempts

def constantTimeEqual (left right : String) : Bool :=
  if (Compat.utf8 left).length ≠ (Compat.utf8 right).length then false
  else ((Compat.utf8 left).zip (Compat.utf8 right)).foldl (fun diff pair => diff ||| (pair.1 ^^^ pair.2)) 0 == 0

/-- A management request: the two secrets as they are when it comes, and its key. -/
structure KeyRequest where
  peer : IpAddr
  secret : String
  envSecret : String
  remoteAllowed : Bool
  provided : String
  /-- Over RESP the verifier is held until the answer, over REST until the comparison. -/
  resp : Bool

def KeyRequest.allowRemote (request : KeyRequest) : Bool :=
  !request.envSecret.isEmpty || request.remoteAllowed

def KeyRequest.missing (request : KeyRequest) : Bool := request.provided.isEmpty

def KeyRequest.valid (bcryptVerify : String → String → Bool) (request : KeyRequest) : Bool :=
  if request.missing then false
  else if !request.envSecret.isEmpty && constantTimeEqual request.envSecret request.provided then true
  else if Text.startsWith "$2" request.secret then bcryptVerify request.provided request.secret
  else !request.secret.isEmpty && constantTimeEqual request.secret request.provided

inductive Outcome where
  | granted
  | failed (number : Nat)
  | refused (status : StatusCode)
deriving DecidableEq, Repr

structure Answer where
  peer : IpAddr
  time : Nat
  outcome : Outcome
deriving DecidableEq

/-- An attempt between its check and its answer. -/
structure Flight where
  request : KeyRequest
  verdict : Option Bool

/-- The gate with the attempts under way and the answers so far. -/
structure GateState where
  attempts : ManagementAttempts
  flights : Nat → Option Flight
  clock : Nat
  answers : List Answer

namespace GateState

def new : GateState where
  attempts := .new
  flights := fun _ => none
  clock := 0
  answers := []

variable (state : GateState)

def setFlight (id : Nat) (flight : Option Flight) : GateState :=
  { state with flights := fun other => if other = id then flight else state.flights other }

def answer (peer : IpAddr) (outcome : Outcome) : GateState :=
  { state with answers := state.answers ++ [⟨peer, state.clock, outcome⟩] }

inductive Event where
  | enter (id : Nat) (request : KeyRequest) (now : Nat)
  | verify (id : Nat)
  | finish (id : Nat) (now : Nat)

def failureNumber (attempts : ManagementAttempts) (peer : IpAddr) (now : Nat) : Nat :=
  (((attempts.preflight peer true now).1.ips peer).map IpRecord.failures).getD 0 + 1

def outcomeOf (attempts : ManagementAttempts) (peer : IpAddr) (now : Nat) : Except Denial Unit → Outcome
  | .ok () => .granted
  | .error denial =>
    if denial.status = .unauthorized then .failed (failureNumber attempts peer now)
    else .refused denial.status

def onBegin (id : Nat) (request : KeyRequest) (now : Nat) : Option GateState :=
  if state.flights id |>.isSome then none
  else if now < state.clock then none
  else if request.secret.isEmpty && request.envSecret.isEmpty then none
  else
    let state := { state with clock := now }
    match state.attempts.beginVerification request.peer request.allowRemote now with
    | (attempts, .ok ()) => some ({ state with attempts }.setFlight id (some ⟨request, none⟩))
    | (attempts, .error denial) => some ({ state with attempts }.answer request.peer (.refused denial.status))

def onVerify (bcryptVerify : String → String → Bool) (state : GateState) (id : Nat) : Option GateState :=
  match state.flights id with
  | some ⟨request, none⟩ =>
    let attempts := if request.resp then state.attempts else state.attempts.release
    some ({ state with attempts }.setFlight id (some ⟨request, some (request.valid bcryptVerify)⟩))
  | _ => none

def onFinish (id : Nat) (now : Nat) : Option GateState :=
  match state.flights id with
  | some ⟨request, some valid⟩ =>
    if now < state.clock then none
    else
      let verdict := state.attempts.authenticate request.peer request.allowRemote valid
        request.missing now
      let attempts := if request.resp then verdict.1.release else verdict.1
      let outcome := outcomeOf state.attempts request.peer now verdict.2
      some (({ state with attempts, clock := now }.setFlight id none).answer request.peer outcome)
  | _ => none

def step (bcryptVerify : String → String → Bool) (state : GateState) : Event → Option GateState
  | .enter id request now => state.onBegin id request now
  | .verify id => state.onVerify bcryptVerify id
  | .finish id now => state.onFinish id now

end GateState
end Mahoquot.Management
