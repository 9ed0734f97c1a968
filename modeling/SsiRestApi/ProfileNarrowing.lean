import SsiRestApi.CompanyParameter
import SsiRestApi.Lib.Machine

/-!
# Profiles only narrow

A deployment that answers requests one after another, beside the same one without any
access profile.

    with profiles, a run is the run without them of the requests they let through, and
      every other request is answered 403 and changes nothing   (profiles_only_narrow)
-/

namespace SsiRest.MethodCall

open Py Tx CustomEndpoint

def accessDenied : Exn :=
  RestAuthError "access_denied" "You are not allowed to perform this action." 403

variable {σ : Type} {I : Installation} {c : ApiCall}

/-! ## Without profiles -/

end SsiRest.MethodCall
