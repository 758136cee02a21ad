import Narrative.Json.Reader
import Narrative.Schema.Draft
import Narrative.Schema.Subject
import Narrative.Service.Endpoint
import Narrative.Service.Reply
import Narrative.Text.Encoding

/-!
# Messages

A message is a request as it comes over the wire: a method, an address and perhaps a body.  A
message that is no request is turned down without looking at any story.
-/

namespace Narrative

open Schema

/-- A message. -/
structure Message where
  /-- The method. -/
  method : Method
  /-- The address. -/
  address : String
  /-- The text of the body. -/
  body : Option String := none

/-- Why a message is no request. -/
inductive Rejection where
  /-- The address names nothing. -/
  | unknownAddress
  /-- The resource does not answer to the method. -/
  | unknownMethod
  /-- The body is beyond what is read. -/
  | unreadableBody
  /-- Parameters or body are not in order. -/
  | malformed (issues : List Issue)
  /-- Parameters or body are not in order, in a way that cannot be reported. -/
  | unreportable
deriving DecidableEq, Repr

/-- The reply to a message that is no request. -/
def Rejection.reply : Rejection → Reply
  | unknownAddress => .notFound
  | unknownMethod => .methodNotAllowed
  | unreadableBody => .unreadableBody
  | malformed issues => .ofIssues issues
  | unreportable => .internalError

namespace Message

/-- The reply to a message that is turned down; one that asks for the head alone gets no body. -/
def turnDown (message : Message) (rejection : Rejection) : Reply :=
  if message.method = .head then { rejection.reply with body := .empty } else rejection.reply

/-! ## Bodies -/

/-- The value of a body; an empty one has none. -/
def bodyValue (body : Option String) : Except Rejection (Option Json) :=
  match body with
  | none => .ok none
  | some text =>
    if text.isEmpty then .ok none
    else match (Text.redecode text).bind Json.spelling? with
      | none => .error .unreadableBody
      | some chars =>
        match Json.readChars .exchanged chars with
        | .ok value => .ok (some value)
        | .error .malformed => .error (.malformed [⟨.malformed, [.field "body"]⟩])
        | .error _ => .error .unreadableBody

/-- The document in which the paths of issues begin. -/
def root : Option Json → Json
  | some body => .obj [("body", body)]
  | none => .obj []

/-- Why issues turn a message down; they are reported with what they are about. -/
def rejection (root : Json) (issues : List Issue) : Rejection :=
  if issues.all fun issue => issue.isReportable root then .malformed issues else .unreportable

/-! ## Requests -/

/-- Read a request from the document in which the paths of issues begin. -/
def readFrom (root : Json) (reader : Reader Request) : Except Rejection (Draft Request) :=
  (Draft.read reader root).mapError (rejection root)

/-- Read a request at an endpoint; a body that cannot be read keeps the parameters from being
read. -/
def readAt (body : Option String) : Endpoint → Except Rejection (Draft Request)
  | .plain request => readFrom (root none) fun _ => request
  | .withBody request => do
    readFrom (root (← bodyValue body)) fun root => request (root.field? "body")

/-- The request of a message. -/
def request (message : Message) : Except Rejection (Draft Request) :=
  match Resource.at? message.address with
  | none => .error .unknownAddress
  | some resource =>
    match Endpoint.of? message.method resource with
    | none => .error .unknownMethod
    | some endpoint => readAt message.body endpoint

end Message

end Narrative
