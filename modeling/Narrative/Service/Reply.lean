import Narrative.Json.Writer
import Narrative.Failure

/-!
# Replies

What a client gets back.  A reply carries a document, or a plain text when the service has a
defect.
-/

namespace Narrative

/-- The outcome of a request as a reply tells it. -/
inductive StatusCode where
  | ok
  | created
  | noContent
  | badRequest
  | notFound
  | methodNotAllowed
  | unprocessable
  | internalError
deriving DecidableEq, Repr

/-- The number of a status. -/
def StatusCode.number : StatusCode → Nat
  | ok => 200
  | created => 201
  | noContent => 204
  | badRequest => 400
  | notFound => 404
  | methodNotAllowed => 405
  | unprocessable => 422
  | internalError => 500

/-- What a reply carries. -/
inductive Body where
  | empty
  | text (content : String)
  | document (content : Json)

/-- A reply. -/
structure Reply where
  /-- The outcome. -/
  status : StatusCode := .ok
  /-- The content. -/
  body : Body := .empty
  /-- How the content is to be saved, if it is meant for that. -/
  disposition : Option String := none

namespace Reply

/-- A reply with a document. -/
def document (content : Json) : Reply := { body := .document content }

/-- A reply with the document of something new. -/
def created (content : Json) : Reply := { status := .created, body := .document content }

/-- A reply that explains in a document why a request was not met. -/
def refusal (status : StatusCode) (detail : Json) : Reply :=
  { status, body := .document (.obj [("detail", detail)]) }

/-- The body is beyond what is read. -/
def unreadableBody : Reply := refusal .badRequest (.str "There was an error parsing the body")

/-- The service has a defect. -/
def internalError : Reply := { status := .internalError, body := .text "Internal Server Error" }

/-- The path names nothing. -/
def notFound : Reply := refusal .notFound (.str "Not Found")

/-- The path names something that does not answer to the method. -/
def methodNotAllowed : Reply := refusal .methodNotAllowed (.str "Method Not Allowed")

/-- A step of the path to an issue. -/
def ofStep : Schema.Step → Json
  | .field name => .str name.mended
  | .item index => .int index

/-- An issue: the code of the fault and the path to it. -/
def ofIssue (issue : Schema.Issue) : Json :=
  .obj [("type", .str issue.fault.code), ("loc", .arr (issue.path.map ofStep))]

/-- The request is not in order. -/
def ofIssues (issues : List Schema.Issue) : Reply :=
  refusal .unprocessable (.arr (issues.map ofIssue))

/-- The request failed. -/
def ofFailure (failure : Failure) : Reply :=
  match failure.severity with
  | .notFound => refusal .notFound (.str failure.message)
  | .rejected => refusal .unprocessable (.str failure.message)
  | .defect => internalError

end Reply

end Narrative
