/- # Proviso.Function.Membership -- one of some values, or within bounds -/
import Proviso.Function.Basic

namespace Proviso

set_option autoImplicit false

/-- Whether the first argument equals one of the others. -/
def isOneOf : List Datum → Judgement
  | [] => .fail "[] range exceeded"
  | subject :: candidates =>
    if candidates.any (·.same subject) then .pass
    else .fail ("[" ++ " ".intercalate (candidates.map Datum.display) ++ "] range exceeded")

/-- Whether the first argument is between the other two, as doubles; both bounds are included. -/
def isWithin : List Datum → Judgement
  | [subject, least, most] =>
    let within := match subject.number?, least.number?, most.number? with
      | some subject, some least, some most => least.le subject && subject.le most
      | _, _, _ => false
    if within then .pass
    else .fail ("[" ++ least.display ++ ", " ++ most.display ++ "] range exceeded")
  | _ => .fail "range expects a subject and two bounds"

namespace Function

def oneOf : Function := ⟨"in", 2, none, .predicate isOneOf, false⟩

def within : Function := ⟨"range", 3, some 3, .predicate isWithin, false⟩

end Function

end Proviso
