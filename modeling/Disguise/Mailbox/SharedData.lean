import Disguise.Memory.Octets
import Disguise.Process.SharedMemory

/-!
# The mailbox of the virtual SIM

`SharedData`, the record in shared memory through which the UE and the host of the virtual SIM
exchange requests and responses. Its members are the cells of a shared memory: the flags are
`std::atomic<bool>`, and each array is copied as a whole.

The record is defined in the host program; the UE includes it from a header that is not part of the
repository. Its member `response` is used by neither side and left out.
-/

set_option autoImplicit false
set_option relaxedAutoImplicit false

namespace Disguise.Mailbox

open Memory Process

/-- `CommandType`. -/
inductive CommandType where
  | cmdNone
  | cmdAuthenticate
  | cmdSwitch
  | cmdExit
  deriving DecidableEq, Repr

/-- The members of `SharedData`. -/
inductive Member where
  | commandReady
  | responseReady
  | authResponseReady
  | commandType
  | randBytes
  | opcBytes
  | autenbBytes
  | res
  | akXorSqn
  | ck
  | ik
  deriving DecidableEq, Repr

/-- The types of the members. -/
abbrev Content : Member → Type
  | .commandReady | .responseReady | .authResponseReady => Bool
  | .commandType => CommandType
  | .randBytes | .opcBytes | .autenbBytes | .ck | .ik => Octets 16
  | .res => Octets 8
  | .akXorSqn => Octets 6

/-- The contents of the shared-memory object. -/
abbrev SharedData := Shared Content

/-- The code of a process that maps the object. -/
abbrev MailboxProgram (α : Type) := Program Content α

end Disguise.Mailbox
