import BtApiSecurity.Access.History
import BtApiSecurity.Framework.Stacking

/-!
# Who gets in

Functions behind permission decorators, over the access control as it is after any
calls. Whether a call of such a function gets to it is a matter of what its user was
granted in these calls.
-/

namespace BtApiSecurity.Framework
open Py Machine Audit BtApiSecurity.Access

section
variable {ω ε : Type} {objects : Objects ω ε} {env : BtApiSecurity.Access.Env} {m : AccessControlManager}

variable {met : Time × Requirement → Prop} {asked : List (Time × Requirement)} {userId : String}
  {ending : Except (Raised ε) Unit} {demand : Time × Requirement}

variable {call : Call (Argument ω)}

variable {decorators : List Decorator}

end

end BtApiSecurity.Framework
