import Mathlib.Algebra.Group.Nat.Defs
import Mathlib.Data.List.Basic

/-!
# What the host answers

The failures a Matrix backend reports, how the library classifies them, and the
per-recipient outcomes of a to-device send. The library decides from the error
code what is final; a message text never decides. Times are milliseconds since
the epoch, as natural numbers with the saturation of `u64` written out where the
code relies on it.
-/
namespace MatrixRtc.HostAnswers

/-- The largest `u64`. -/
def u64Max : ℕ := 2 ^ 64 - 1

/-- `u64::saturating_add`. -/
def satAdd (a b : ℕ) : ℕ := min (a + b) u64Max

theorem satAdd_le (a b : ℕ) : satAdd a b ≤ a + b := by
  unfold satAdd
  omega

theorem satAdd_mono {a b c : ℕ} (h : b ≤ c) : satAdd a b ≤ satAdd a c := by
  unfold satAdd
  omega

structure BackendError where
  errcode : Option String
  status : Option ℕ
  retryAfterMs : Option ℕ
  permanent : Bool
  message : String
deriving DecidableEq, Repr

namespace BackendError

def withMatrixError (errcode : Option String) (status : Option ℕ) (message : String) :
    BackendError :=
  ⟨errcode, status, none, false, message⟩

def new (message : String) : BackendError :=
  withMatrixError none none message

/-- Retrying cannot help: the host marked it final, or the code denotes a
refusal. A rate limit, `M_UNKNOWN`, a code on a 5xx and no code are transient. -/
def isPermanent (e : BackendError) : Bool :=
  e.permanent ||
    match e.errcode with
    | none => false
    | some code =>
        !(code == "M_LIMIT_EXCEEDED" || code == "M_UNKNOWN") && !(e.status.any (500 ≤ ·))

def isRateLimited (e : BackendError) : Bool :=
  e.errcode == some "M_LIMIT_EXCEEDED"

end BackendError

inductive CommandError where
  | clientRejected (reason : String)
  | serializationError (reason : String)
  | invalidRoomId
  | invalidEventType (found : String)
  | backend (error : BackendError)
  | schedulingError (reason : String)
  | cancelError (reason : String)
  | delayedEventsNotSupported (reason : String)
deriving DecidableEq, Repr

namespace CommandError

def backendError : CommandError → Option BackendError
  | backend e => some e
  | _ => none

def isPermanent : CommandError → Bool
  | backend e => e.isPermanent
  | delayedEventsNotSupported _ | clientRejected _ | serializationError _
  | invalidRoomId | invalidEventType _ => true
  | schedulingError _ | cancelError _ => false

def isDelayedEventsUnsupported : CommandError → Bool
  | delayedEventsNotSupported _ => true
  | _ => false

end CommandError

structure ToDeviceRecipient where
  userId : String
  deviceId : String
deriving DecidableEq, Repr

/-- What became of one recipient of a to-device send; no error means accepted. -/
structure ToDeviceDelivery where
  recipient : ToDeviceRecipient
  error : Option String
deriving DecidableEq, Repr

def ToDeviceDelivery.sent (recipient : ToDeviceRecipient) : ToDeviceDelivery :=
  ⟨recipient, none⟩

def ToDeviceDelivery.failed (recipient : ToDeviceRecipient) (error : String) :
    ToDeviceDelivery :=
  ⟨recipient, some error⟩

def ToDeviceDelivery.isSent (d : ToDeviceDelivery) : Bool :=
  d.error.isNone

end MatrixRtc.HostAnswers
