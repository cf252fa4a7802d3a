import Mathlib.Tactic.Common

/-!
# Errors

The error classes the client throws, with the data each one carries. Which
class an error has decides whether a connection survives it.
-/

namespace SpiritMysql.Errors

/-- How fatal a server error is, and what can be retried after it. -/
inductive CanRetry where
  /-- Nothing can be retried. -/
  | NONE
  /-- Reconnecting can solve the error. -/
  | CONN
  /-- The transaction can be retried. -/
  | TRX
  /-- The same query can be retried. -/
  | QUERY
deriving DecidableEq, Repr

/-- The error a server reported, or one that user code built itself. -/
structure SqlError where
  /-- The text of the message, as its bytes. -/
  message : List UInt8
  /-- The number of the error. -/
  errorCode : ℕ
  /-- Five characters after the `#` mark. -/
  sqlState : List UInt8
  /-- What can be retried, computed from the code and the status flags. -/
  canRetry : CanRetry
deriving DecidableEq, Repr

/-- Any value that the client or user code can throw. -/
inductive Error where
  /-- The server answered with an error packet. -/
  | sql (e : SqlError)
  /-- The server did not respond properly, or the transport ended. -/
  | serverDisconnected (message : String)
  /-- The previous query is not finished. -/
  | busy (message : String)
  /-- The connection was ended during the operation. -/
  | canceled (message : String)
  /-- The data of a packet could not be sent. -/
  | sendWithData (message : String) (packetSize : ℕ)
  /-- A plain `Error`, also its `RangeError` and `TypeError` subclasses. -/
  | error (message : String)
  /-- A value that is not an error object. -/
  | other (value : ℕ)
deriving DecidableEq, Repr

/-- The test `error instanceof SqlError`. -/
def Error.isSql : Error → Bool
  | .sql _ => true
  | _ => false

/-- `ErrorCodes.ER_LOCK_WAIT_TIMEOUT`. -/
def lockWaitTimeout : ℕ := 1205
/-- `ErrorCodes.ER_LOCK_DEADLOCK`. -/
def lockDeadlock : ℕ := 1213
/-- `ErrorCodes.ER_XA_RBTIMEOUT`. -/
def xaRbTimeout : ℕ := 1613
/-- `ErrorCodes.ER_XA_RBDEADLOCK`. -/
def xaRbDeadlock : ℕ := 1614
/-- `ErrorCodes.ER_XAER_NOTA`. -/
def xaerNota : ℕ := 1397
/-- `ErrorCodes.ER_NO_SUCH_THREAD`. -/
def noSuchThread : ℕ := 1094

/-- The codes after which reconnecting can recover: shutdown, the limits on
connections and users, and a thread that could not be created. -/
def reconnectCodes : List ℕ := [1053,1203,1040,1226,1135]

/-- The constructor of `SqlError`: a lock conflict lets the query be retried
only when it ran outside of a transaction in autocommit mode. -/
def SqlError.make (message : List UInt8) (errorCode : ℕ) (sqlState : List UInt8)
    (autocommit inTrx : Bool) : SqlError :=
  ⟨message,errorCode,sqlState,
    if errorCode ∈ [lockWaitTimeout,lockDeadlock,xaRbTimeout,xaRbDeadlock] then
      if autocommit && !inTrx then .QUERY else .TRX
    else if errorCode ∈ reconnectCodes then .CONN
    else .NONE⟩

end SpiritMysql.Errors
