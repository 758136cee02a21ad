import Narrative.Proofs.Storage.Stored
import Narrative.Service.Exchange

/-!
# Looking

Opening a story and answering a query only read.  An attempt that only reads leaves every store as
it is, whether it goes through or not and whatever the store holds.
-/

namespace Narrative

/-- The attempt leaves every store as it is. -/
def Attempt.OnlyReads {α : Type} (attempt : Attempt α) : Prop :=
  ∀ records, (attempt.run records).2 = records

namespace Attempt

variable {α β : Type} {attempt : Attempt α}

theorem onlyReads_pure (value : α) : OnlyReads (pure value) := fun _ => rfl

theorem onlyReads_throw (failure : Failure) : OnlyReads (throw failure : Attempt α) := fun _ => rfl

theorem onlyReads_ofExcept (outcome : Except Failure α) : OnlyReads (ofExcept outcome) := by
  intro records
  rw [run_ofExcept]

theorem onlyReads_get (key : String) : OnlyReads (liftM (Script.get key)) := fun _ => rfl

theorem OnlyReads.bind (h : attempt.OnlyReads) {f : α → Attempt β}
    (hf : ∀ value, (f value).OnlyReads) : (attempt >>= f).OnlyReads := by
  intro records
  have hfirst := h records
  rw [run_bind]
  split
  case h_1 value after hrun =>
    rw [hrun] at hfirst
    rw [← hfirst, hf value after]
  case h_2 failure after hrun =>
    rw [hrun] at hfirst
    exact hfirst

theorem OnlyReads.map (h : attempt.OnlyReads) (f : α → β) : (f <$> attempt).OnlyReads := by
  intro records
  rw [run_map]
  exact h records

theorem OnlyReads.unexplained (h : attempt.OnlyReads) : attempt.unexplained.OnlyReads := by
  intro records
  rw [run_unexplained]
  exact h records

end Attempt

open Attempt

namespace Repository

theorem onlyReads_load {α : Type} (key title : String)
    (reader : Schema.Origin → Schema.Reader α) : (load key title reader).OnlyReads := by
  refine (onlyReads_get key).bind fun found => ?_
  cases found with
  | none => exact onlyReads_pure none
  | some text =>
    simp only
    split
    · exact onlyReads_pure none
    · exact (onlyReads_ofExcept _).map some

theorem onlyReads_loadNames (key : String) : (loadNames key).OnlyReads := by
  refine (onlyReads_get key).bind fun found => ?_
  cases found with
  | none => exact onlyReads_pure []
  | some text => exact onlyReads_ofExcept _

end Repository

theorem Catalog.onlyReads_require (story : String) : (require story).OnlyReads := by
  refine ((Repository.onlyReads_loadNames _).bind fun _ => onlyReads_pure _).bind fun listed => ?_
  cases listed
  · exact onlyReads_throw _
  · exact onlyReads_pure _

namespace Session

theorem onlyReads_build (story : String) (restores : Bool) : (build story restores).OnlyReads := by
  refine (Repository.onlyReads_load _ _ _).bind fun definitions => ?_
  refine (Repository.onlyReads_load _ _ _).bind fun graph => ?_
  cases restores with
  | false => exact onlyReads_pure _
  | true => exact fun _ => rfl

theorem onlyReads_openStory (story : String) (restores : Bool) :
    (openStory story restores).OnlyReads :=
  (Catalog.onlyReads_require story).bind fun _ => onlyReads_build story restores

end Session

/-! ## Queries -/

namespace Query

theorem onlyReads_answer (now : Instant) (session : Session) (query : Query) :
    (query.answer now session).OnlyReads := by
  cases query with
  | graph | nodes | definitions | view | history => exact onlyReads_pure _
  | node key =>
    rw [answer]
    split
    · exact onlyReads_pure _
    · exact onlyReads_throw _
  | bundle =>
    refine OnlyReads.unexplained ?_
    exact (onlyReads_ofExcept _).bind fun _ =>
      (onlyReads_ofExcept _).bind fun _ => onlyReads_pure _
  | slots =>
    refine OnlyReads.unexplained ((Repository.onlyReads_loadNames _).bind fun labels => ?_)
    split
    · exact onlyReads_pure _
    · exact onlyReads_throw _

/-- A query leaves every store as it is. -/
theorem onlyReads_perform (now : Instant) (story : String) (query : Query) :
    (query.perform now story).OnlyReads :=
  (Session.onlyReads_openStory story true).bind fun session => query.onlyReads_answer now session

/-- A query about a story of the catalog is answered from what is stored of it. -/
theorem run_perform {records : Records} {id : Identifier} (h : Kept records)
    (hlisted : Stored.Registered records id) (now : Instant) (query : Query) :
    (query.perform now id.spelling).run records =
      (query.answer now (Stored.session records id)).run records := by
  rw [perform, Attempt.run_bind, Session.openStory_of_registered h hlisted]

end Query

/-- Only commands and the creation of a story can change a store. -/
theorem Request.onlyReads_perform {request : Request} (hcreates : request.creates = false)
    (hchanged : request.changed? = none) (assets : Option Assets) (fresh : Identifier)
    (now : Instant) : (request.perform assets fresh now).OnlyReads := by
  cases request with
  | health | about | documentation => exact onlyReads_pure _
  | createStory => exact absurd hcreates (by decide)
  | listStories =>
    have hstories : Catalog.stories.OnlyReads :=
      (Repository.onlyReads_loadNames _).bind fun _ => onlyReads_pure _
    exact hstories.unexplained.bind fun _ => onlyReads_pure _
  | query story asked => exact asked.onlyReads_perform now story.spelling
  | command story wanted => exact absurd hchanged (by simp [changed?])

end Narrative
