import Narrative.Hub
import Narrative.Service.Message
import Narrative.Service.Perform

/-!
# The service

The service takes one message after the other.  It keeps the stored texts, the loaded assets, the
sockets that follow stories, and the number of identifiers that it has given out.  A command that
goes through is announced to the followers of its story; nothing else is.
-/

namespace Narrative

/-- The state of the service. -/
structure Service (σ : Type) where
  /-- The stored texts. -/
  records : Records := .empty
  /-- The sockets that follow stories. -/
  hub : Hub σ := {}
  /-- The loaded assets. -/
  assets : Option Assets := none
  /-- How many identifiers have been given out. -/
  issued : Nat := 0

/-- What surrounds the service while it answers. -/
structure Surroundings (σ : Type) where
  /-- The time.  It stands still while a message is answered, however often the clock is read. -/
  now : Instant
  /-- The identifiers of new stories, in the order in which they are given out. -/
  supply : Nat → Identifier
  /-- Which sockets can be reached. -/
  alive : σ → Bool

/-- What comes of a message. -/
structure Exchange (σ : Type) where
  /-- The reply. -/
  reply : Reply
  /-- The sockets that are sent to, and what they are sent. -/
  sent : List (σ × Json) := []
  /-- The service afterwards. -/
  service : Service σ

namespace Service

variable {σ : Type} [DecidableEq σ]

/-- Announce to the followers of a story that it has changed. -/
def announce (service : Service σ) (alive : σ → Bool) (story : String) :
    List (σ × Json) × Service σ :=
  let (reached, hub) := service.hub.broadcast alive story
  (reached.map (·, Hub.storyUpdated story), { service with hub })

/-- Carry out a request on the stored texts. -/
def perform (service : Service σ) (surroundings : Surroundings σ) (request : Request) :
    Except Failure Reply × Service σ :=
  let fresh := surroundings.supply service.issued
  let (outcome, records) :=
    (request.perform service.assets fresh surroundings.now).run service.records
  let issued := if request.creates then service.issued + 1 else service.issued
  (outcome, { service with records, issued })

/-- Answer a request. -/
def answer (service : Service σ) (surroundings : Surroundings σ) (request : Request) :
    Exchange σ :=
  match service.perform surroundings request with
  | (.error failure, service) => { reply := .ofFailure failure, service }
  | (.ok reply, service) =>
    match request.changed? with
    | none => { reply, service }
    | some story =>
      let (sent, service) := service.announce surroundings.alive story.spelling
      { reply, sent, service }

/-- Answer a request that cannot be stored; whatever else fails about it is told first. -/
def refuse (service : Service σ) (surroundings : Surroundings σ) (request : Request)
    (points : List Nat) : Exchange σ :=
  match (service.perform surroundings request).1 with
  | .error failure => { reply := .ofFailure failure, service }
  | .ok _ => { reply := .ofFailure (.unwritableText points), service }

/-- Take a message. -/
def take (service : Service σ) (surroundings : Surroundings σ) (message : Message) : Exchange σ :=
  match message.request with
  | .ok ⟨request, none⟩ => service.answer surroundings request
  | .ok ⟨request, some points⟩ => service.refuse surroundings request points
  | .error rejection => { reply := message.turnDown rejection, service }

/-- Let a socket follow a story, given by any spelling of its identifier; tell how the followers
of the story are kept. -/
def follow (service : Service σ) (alive : σ → Bool) (story : String) (socket : σ) :
    Option (String × Service σ) := do
  let id ← Identifier.ofText? story
  let hub ← service.hub.connect alive id.spelling socket
  return (id.spelling, { service with hub })

/-- Let a socket no longer follow a story. -/
def leave (service : Service σ) (story : String) (socket : σ) : Service σ :=
  { service with hub := service.hub.disconnect story socket }

end Service

end Narrative
