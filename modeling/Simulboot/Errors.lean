import Simulboot.Session

/-!
# Application errors

The errors of the compositor's own code: messages, the errors of the crates it
calls, and contexts wrapped around them.
-/

set_option autoImplicit false

namespace Simulboot

open Library

/-- An `anyhow::Error`; `E` is postcard's error type. Errors of the standard
library and of the transport keep their text only. -/
inductive AnyhowError (E : Type) where
  | message (text : Message)
  | session (source : SessionError)
  | wire (source : WireError E)
  | std (text : Str)
  | context (text : Message) (source : AnyhowError E)
  deriving DecidableEq

variable {E α : Type}

/-- `Context::context` on an option. -/
def contextNone (text : Message) : Option α → Except (AnyhowError E) α
  | some value => .ok value
  | none => .error (.message text)

/-- `Context::context` on a result. -/
def withContext (text : Message) : Except (AnyhowError E) α → Except (AnyhowError E) α
  | .ok value => .ok value
  | .error e => .error (.context text e)

theorem withContext_eq_ok {text : Message} {x : Except (AnyhowError E) α} {value : α} :
    withContext text x = .ok value ↔ x = .ok value := by
  cases x <;> simp [withContext]

end Simulboot
