import SmoFramework.Packet.Codec
import SmoFramework.Session.ReplayWindow

/-! Sessions, their five-state machine and the session table (`core/session/session`). The
certificate, the capabilities, the channels and the metrics of a session are left out: nothing
here reads them. -/
namespace SmoFramework
open Library Library.BigEndian

inductive SessionState
  | closed | handshake | established | active | renewing
  deriving DecidableEq, Repr

inductive SessionEvent
  | openRequest | established | activate | completeContract | renew | close | timeout | error
  deriving DecidableEq, Repr

def isValidTransition : SessionState → SessionEvent → Bool
  | .closed,event => event = .openRequest
  | .handshake,event => event = .established || event = .close || event = .timeout || event = .error
  | .established,event => event = .activate || event = .renew || event = .close ||
      event = .timeout || event = .error
  | .active,event => event = .completeContract || event = .close || event = .error
  | .renewing,event => event = .established || event = .close || event = .timeout || event = .error

def applyTransition (state : SessionState) (event : SessionEvent) : SessionState :=
  if isValidTransition state event = false then state
  else match event with
    | .openRequest => .handshake
    | .established => .established
    | .activate => .active
    | .completeContract => .established
    | .renew => .renewing
    | .close | .timeout | .error => .closed

structure SessionSecurityState where
  sessionId : Id16 := Id16.zero
  epoch : UInt64 := 0
  txSequence : UInt64 := 0
  rxEpoch : UInt64 := 0
  rxWindow : Session.ReplayWindow := {}

structure Session where
  id : Id16 := Id16.zero
  state : SessionState := .closed
  certFingerprint : String := ""
  createdAt : Int64 := 0
  expiresAt : Int64 := 0
  lastActive : Int64 := 0
  securityState : SessionSecurityState := {}

namespace Session

/-- `Session::create`. Times are added in 64 bits. -/
def create (id : Id16) (now : Int64) (ttl : UInt64) : Result Session :=
  if ttl.toNat > 2^63-1 then
    .error (smoErrSession 500 .error .noRetry .reconnect "TTL exceeds int64_t range")
  else .ok {
    id
    state := .handshake
    createdAt := now
    expiresAt := now+ttl.toInt64
    lastActive := now
    securityState := { sessionId := id } }

variable (s : Session)

def isValidAt (now : Int64) : Bool := s.state ≠ .closed && now < s.expiresAt

def onEvent (event : SessionEvent) (now : Int64) : Result Unit × Session :=
  if isValidTransition s.state event = false then
    (.error (smoErrSession 500 .error .noRetry .reconnect "invalid session state transition"),s)
  else
    let s := { s with state := applyTransition s.state event, lastActive := now }
    (.ok (),if s.state = .closed then { s with expiresAt := now } else s)

def renew (s : Session) (now : Int64) (ttl : UInt64) : Result Unit × Session :=
  if s.state ≠ .established ∧ s.state ≠ .active then
    (.error (smoErrSession 505 .warn .retrySafe .reconnect
      "renew only valid in Established/Active state"),s)
  else if ttl.toNat > 2^63-1 then
    (.error (smoErrSession 500 .error .noRetry .reconnect "TTL exceeds int64_t range"),s)
  else (.ok (),{ s with expiresAt := now+ttl.toInt64, lastActive := now })

def withWindow (w : ReplayWindow) : Session :=
  { s with securityState := { s.securityState with rxWindow := w } }

end Session

/-- The table, and the list of revoked certificates if one is set. -/
structure SessionManager where
  sessions : AssocMap UInt64 Session := AssocMap.empty
  crl : Option (String → Result Bool) := none

namespace SessionManager

/-- `to_key`: the first eight bytes of the id, copied into a word on a little-endian machine. -/
def toKey (id : Id16) : UInt64 := read64 (id.toList.take 8).reverse

variable (m : SessionManager)

def openSession (session : Session) : Result Unit × SessionManager :=
  let insert : Result Unit × SessionManager :=
    let key := toKey session.id
    if m.sessions.contains key then
      (.error (smoErrSession 504 .warn .noRetry .none "session already exists"),m)
    else (.ok (),{ m with sessions := m.sessions.insert key session })
  match m.crl with
  | none => insert
  | some isRevoked =>
    if session.certFingerprint = "" then insert
    else match isRevoked session.certFingerprint with
      | .error e => (.error (smoErrSession 507 .error .noRetry .reconnect
          ("CRL check failed: " ++ e.message)),m)
      | .ok true => (.error (smoErrSession 508 .error .noRetry .reconnect
          "session rejected: certificate is revoked"),m)
      | .ok false => insert

def lookup (id : Id16) : Option Session := m.sessions.find (toKey id)

def put (id : Id16) (s : Session) : SessionManager :=
  { m with sessions := m.sessions.insert (toKey id) s }

theorem find_put (id : Id16) (s : Session) (k : UInt64) :
    (m.put id s).sessions.find k = if k = toKey id then some s else m.sessions.find k :=
  AssocMap.find_insert _ _ _ _

def transition (id : Id16) (event : SessionEvent) (now : Int64) : Result Unit × SessionManager :=
  match m.lookup id with
  | none => (.error (smoErrSession 501 .info .retrySafe .reconnect "session not found"),m)
  | some s => ((s.onEvent event now).1,m.put id (s.onEvent event now).2)

/-- `close` sends the close event the same way. -/
def close (id : Id16) (now : Int64) : Result Unit × SessionManager :=
  m.transition id .close now

/-- `Session::renew` on the session that `lookup` returns, if it returns one. -/
def renew (id : Id16) (now : Int64) (ttl : UInt64) : SessionManager :=
  match m.lookup id with
  | none => m
  | some s => m.put id (s.renew now ttl).2

def tickSession (now : Int64) (s : Session) : Session :=
  if s.isValidAt now then s else (s.onEvent .timeout now).2

def tick (now : Int64) : SessionManager :=
  { m with sessions := m.sessions.mapValues (tickSession now) }

def collectGarbage : SessionManager :=
  { m with sessions := m.sessions.filterValues (fun s => s.state ≠ .closed) }

end SessionManager

end SmoFramework
