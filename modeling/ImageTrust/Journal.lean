/-
# The journal

What the parts of the library report while they work: a level, the part, and a line of
text.  The order of the records is the order of the work.
-/
import ImageTrust.Text.Basic

namespace ImageTrust

/-- How much a record matters. -/
inductive Level where
  | debug
  | info
  | warning
  | error
deriving DecidableEq, Repr

/-- The name of a level. -/
def Level.name : Level → Text
  | .debug => "debug"
  | .info => "info"
  | .warning => "warning"
  | .error => "error"

/-- The parts that report. -/
inductive Channel where
  | policy
  | context
  | requirements
  | matching
  | signature
  | image
  | directory
  | lookaside
  | retry
deriving DecidableEq, Repr

/-- The name of a part. -/
def Channel.name : Channel → Text
  | .policy => "policy"
  | .context => "context"
  | .requirements => "requirements"
  | .matching => "match"
  | .signature => "signature"
  | .image => "image"
  | .directory => "directory"
  | .lookaside => "lookaside"
  | .retry => "retry"

/-- One record. -/
structure Entry where
  level : Level
  channel : Channel
  message : Text
deriving DecidableEq

end ImageTrust
