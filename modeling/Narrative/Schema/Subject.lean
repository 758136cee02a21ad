import Narrative.Json.Basic
import Narrative.Schema.Issue

/-!
# Subjects of issues

The value that an issue is about is found by following its path from the root of the document.
-/

namespace Narrative.Schema

/-- The part of a value at the end of a path. -/
def part? : List Step → Json → Option Json
  | [], value => some value
  | .field name :: rest, .obj fields =>
    match Json.Fields.get? fields name with
    | some value => part? rest value
    | none => none
  | .item index :: rest, .arr items =>
    match items[index]? with
    | some value => part? rest value
    | none => none
  | _, _ => none

/-- The value that an issue is about.  Of a missing field that is the object which lacks it. -/
def Issue.subject? (issue : Issue) (root : Json) : Option Json :=
  match issue.fault with
  | .missing => part? issue.path.dropLast root
  | _ => part? issue.path root

/-- Whether an issue can be reported together with the value that it is about. -/
def Issue.isReportable (issue : Issue) (root : Json) : Bool :=
  (issue.subject? root).all Json.isPortable

end Narrative.Schema
