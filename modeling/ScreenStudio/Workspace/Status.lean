/- digest: The message about the last operation. -/

set_option autoImplicit false
set_option relaxedAutoImplicit false

namespace ScreenStudio

inductive StatusKind
  | ok
  | warn
  | error
  | info
  deriving DecidableEq, Repr

def StatusKind.name : StatusKind → String
  | .ok => "ok"
  | .warn => "warn"
  | .error => "error"
  | .info => "info"

/-- A message and its kind. -/
structure Status where
  kind : StatusKind
  message : String
  deriving DecidableEq, Repr

def Status.text (status : Status) : String := "[" ++ status.kind.name ++ "] " ++ status.message

end ScreenStudio
