import Narrative.Proofs.Service.Persisted
import Narrative.Proofs.Story.Updates

/-!
# Updates in a session

Two updates of the same place of a story, one after the other, leave what one update with both
patches leaves.  Updates of places that lie apart leave the same in either order, and each of them
is answered as if the other had not been made, also where one of them is refused because there is
nothing at its place.

The session and the store are compared as a whole.  Only the values of the variables may differ
after two patches of a definition: a value that the first one has cut off at a bound does not come
back when the second one moves that bound.
-/

namespace Narrative

namespace Session

/-- The other session has the same graphs, the same definitions and the reader at the same place;
only the values of the variables may be others. -/
def SameButValues (session other : Session) : Prop :=
  other = { session with store := { session.store with values := other.store.values } }

theorem SameButValues.refl (session : Session) : session.SameButValues session := rfl

end Session

namespace Edit

/-- Make two edits one after the other, and tell whether each of them went through. -/
def inTurn (session : Session) (now later : Instant) (first next : Edit) :
    Attempt (Bool × Bool × Session) := do
  let (done, session) ← first.perform session now
  let (also, session) ← next.perform session later
  return (done, also, session)

end Edit

/-- The edit that makes an update of a graph. -/
def Update.edit : Update → Edit
  | ⟨node, .fields patch⟩ => .patchNode node patch
  | ⟨node, .choice index (.fields patch)⟩ => .patchChoice node index patch
  | ⟨node, .choice index (.condition patch)⟩ => .patchCondition node index patch
  | ⟨node, .choice index (.operation operation patch)⟩ =>
    .patchOperation node index operation patch

namespace Edit

end Edit

/-! ## Updates of places that lie apart -/

end Narrative
