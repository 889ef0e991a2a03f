/-!
# Errors of the crew

The worker does not handle the network, the clock or the sessions itself; it
asks its crew. A call that fails comes back with an error of a known kind
and a text in the crew's own words. The worker never looks inside: both only
reach the log.
-/

namespace StoreForward

/-- What kind of thing went wrong with a device. -/
inductive ErrorKind where
  | other
  | notFound
  | permissionDenied
  | connectionRefused
  | connectionReset
  | connectionAborted
  | notConnected
  | addrInUse
  | addrNotAvailable
  | brokenPipe
  | alreadyExists
  | invalidInput
  | invalidData
  | timedOut
  | interrupted
  | unsupported
  | outOfMemory
  | writeZero
  deriving DecidableEq

namespace ErrorKind

def all : List ErrorKind :=
  [other, notFound, permissionDenied, connectionRefused, connectionReset,
    connectionAborted, notConnected, addrInUse, addrNotAvailable, brokenPipe,
    alreadyExists, invalidInput, invalidData, timedOut, interrupted, unsupported,
    outOfMemory, writeZero]

/-- The name of a kind in diagnostics. -/
def name : ErrorKind → String
  | other => "Other"
  | notFound => "NotFound"
  | permissionDenied => "PermissionDenied"
  | connectionRefused => "ConnectionRefused"
  | connectionReset => "ConnectionReset"
  | connectionAborted => "ConnectionAborted"
  | notConnected => "NotConnected"
  | addrInUse => "AddrInUse"
  | addrNotAvailable => "AddrNotAvailable"
  | brokenPipe => "BrokenPipe"
  | alreadyExists => "AlreadyExists"
  | invalidInput => "InvalidInput"
  | invalidData => "InvalidData"
  | timedOut => "TimedOut"
  | interrupted => "Interrupted"
  | unsupported => "Unsupported"
  | outOfMemory => "OutOfMemory"
  | writeZero => "WriteZero"

/-- The kind a name stands for. -/
def ofName? (s : String) : Option ErrorKind := all.find? fun k => k.name == s

end ErrorKind

/-- Why a call failed: the kind, and the details in the crew's words. -/
structure CallError where
  kind : ErrorKind
  detail : String
  deriving DecidableEq

namespace CallError

/-- The kind, then the details in round brackets. -/
def text (e : CallError) : String := e.kind.name ++ " (" ++ e.detail ++ ")"

end CallError

end StoreForward
