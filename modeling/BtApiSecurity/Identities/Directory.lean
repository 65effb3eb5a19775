import BtApiSecurity.Identities.Login
import BtApiSecurity.Ledger

/-!
# Searching the directory

A search goes through the identities in the order of their creation and ends with the
one that fills the limit. Whom it finds in a group is a matter of the calls made so far:
of the last one that added or removed the identity.
-/

namespace BtApiSecurity.Identities
open Py Machine

/-! ### Collecting up to a limit -/

/-- The limit is read only after the first find, so there is always room for one. -/
def room (limit : Int) : Nat := (max 1 limit).toNat

namespace IdentityManager

variable {env : Env} {s : IdentityManager} {i g : String}

/-! ### The search -/

/-- The filters of a search. -/
structure Filters where
  query : Option String := none
  groupId : Option String := none
  department : Option String := none
  status : Option UserStatus := none

/-- A filter that is `None` or empty is none. -/
def given (filter : Option String) : Option String := filter.filter (· ≠ "")

/-- `part in text`, both in lower case. -/
def mentions (lower : String → String) (part text : String) : Bool :=
  decide ((lower part).toList <:+: (lower text).toList)

/-- The filters that ask the identity alone. -/
def Filters.describe (lower : String → String) (filters : Filters) (identity : Identity) : Bool :=
  (given filters.query).all (fun query => mentions lower query identity.username ||
      mentions lower query identity.email || mentions lower query identity.fullName) &&
    (given filters.department).all (fun department => identity.department = some department) &&
    filters.status.all fun status => identity.status = status

def fits (lower : String → String) (s : IdentityManager) (filters : Filters) (identity : Identity) : Bool :=
  filters.describe lower identity &&
    (given filters.groupId).all fun groupId => groupId ∈ s.getUserGroups identity.identityId

end IdentityManager

end BtApiSecurity.Identities
