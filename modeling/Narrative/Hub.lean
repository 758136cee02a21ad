import Narrative.Json.Basic

/-!
# Live updates

The hub knows which sockets follow which story.  A broadcast reaches every follower of a story that
is alive; followers that turn out to be dead are dropped from that story.
-/

namespace Narrative

/-- The sockets that follow each story.  A socket may follow several stories. -/
structure Hub (σ : Type) where
  /-- The followers by story. -/
  followers : Table String (List σ) := .empty

namespace Hub

variable {σ : Type} [DecidableEq σ]

/-- The sockets that follow a story. -/
def members (hub : Hub σ) (story : String) : List σ := (hub.followers.get? story).getD []

/-- Replace the followers of a story. -/
def setMembers (hub : Hub σ) (story : String) (sockets : List σ) : Hub σ :=
  ⟨hub.followers.insert story sockets⟩

omit [DecidableEq σ] in
theorem members_setMembers (hub : Hub σ) (story other : String) (sockets : List σ) :
    (hub.setMembers story sockets).members other =
      if story = other then sockets else hub.members other := by
  simp only [members, setMembers, Table.get?_insert]
  split <;> rfl

/-- Let a socket follow a story.  Only a socket that is alive accepts the connection. -/
def connect (hub : Hub σ) (alive : σ → Bool) (story : String) (socket : σ) : Option (Hub σ) :=
  if alive socket then
    let members := hub.members story
    some (if socket ∈ members then hub else hub.setMembers story (members ++ [socket]))
  else none

/-- Let a socket no longer follow a story. -/
def disconnect (hub : Hub σ) (story : String) (socket : σ) : Hub σ :=
  let members := hub.members story
  if socket ∈ members then hub.setMembers story (members.filter (· ≠ socket)) else hub

/-- Send to the followers of a story: the sockets that are reached, and the hub without the dead
ones. -/
def broadcast (hub : Hub σ) (alive : σ → Bool) (story : String) : List σ × Hub σ :=
  let members := hub.members story
  let reached := members.filter alive
  (reached, if members.all alive then hub else hub.setMembers story reached)

/-- The message that a story has changed. -/
def storyUpdated (story : String) : Json :=
  .obj [("type", .str "story_updated"), ("story_id", .str story)]

/-- The stories with their followers, where there are any. -/
def followed (hub : Hub σ) : List (String × List σ) :=
  hub.followers.entries.filter fun (_, sockets) => !sockets.isEmpty

end Hub

end Narrative
