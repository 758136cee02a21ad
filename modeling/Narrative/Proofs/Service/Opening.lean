import Narrative.Proofs.Service.Looking

/-!
# Opening in any store

Opening a story at its current position is opening it for a new reader and then going to that
position.  This holds in every store, also in one that nobody can read.
-/

namespace Narrative

variable {records : Records} {session : Session}

namespace Repository

theorem parsed_empty {α : Type} (title : String) (reader : Schema.Origin → Schema.Reader α) :
    (parsed title reader "").toOption = none := rfl

/-- What is loaded is what the text says; an empty text says nothing. -/
theorem loaded_of_run {α : Type} {key title : String} {reader : Schema.Origin → Schema.Reader α}
    {found : Option α} (h : ((load key title reader).run records).1 = .ok found) :
    found = (records.get? key).bind fun text => (parsed title reader text).toOption := by
  cases htext : records.get? key with
  | none =>
    rw [run_load_none htext] at h
    exact (Except.ok.inj h).symm
  | some text =>
    cases hempty : text.isEmpty with
    | true =>
      rw [load, Attempt.run_bind, Attempt.run_lift, run_get, htext] at h
      simp only [hempty, if_true] at h
      rw [String.isEmpty_iff.1 hempty, Option.bind_some, parsed_empty]
      exact (Except.ok.inj h).symm
    | false =>
      rw [run_load_some htext hempty] at h
      cases hparsed : parsed title reader text with
      | error failure =>
        rw [hparsed] at h
        exact absurd h (by simp [Except.map])
      | ok value =>
        rw [hparsed] at h
        rw [Option.bind_some, hparsed]
        exact (Except.ok.inj h).symm

end Repository

namespace Attempt

variable {α β : Type} {attempt : Attempt α}

/-- What follows an attempt that only reads finds the same store. -/
theorem OnlyReads.run_bind (h : attempt.OnlyReads) (f : α → Attempt β) (records : Records) :
    (attempt >>= f).run records =
      match (attempt.run records).1 with
      | .ok value => (f value).run records
      | .error failure => (.error failure, records) := by
  have hafter := h records
  rw [Attempt.run_bind]
  generalize attempt.run records = result at hafter ⊢
  obtain ⟨outcome, after⟩ := result
  subst hafter
  cases outcome <;> rfl

theorem OnlyReads.ok_of_bind (h : attempt.OnlyReads) {f : α → Attempt β} {value : β}
    (hrun : ((attempt >>= f).run records).1 = .ok value) :
    ∃ found, (attempt.run records).1 = .ok found ∧ ((f found).run records).1 = .ok value := by
  rw [h.run_bind] at hrun
  cases hfound : (attempt.run records).1 with
  | error failure =>
    rw [hfound] at hrun
    exact absurd hrun (by simp)
  | ok found =>
    rw [hfound] at hrun
    exact ⟨found, rfl, hrun⟩

end Attempt

namespace Session

/-- A new reader has the definitions and the graph that are loaded, or else the default ones. -/
theorem exists_fresh_of_openStory {story : String}
    (h : ((openStory story false).run records).1 = .ok session) : ∃ definitions graph,
      ((Repository.loadDefinitions story).run records).1 = .ok definitions ∧
      ((Repository.loadGraph story).run records).1 = .ok graph ∧
      session = fresh story (definitions.getD .default) (graph.getD .default) := by
  obtain ⟨_, -, hbuild⟩ := (Catalog.onlyReads_require _).ok_of_bind h
  obtain ⟨definitions, hdefinitions, hrest⟩ := (Repository.onlyReads_load _ _ _).ok_of_bind hbuild
  obtain ⟨graph, hgraph, hsession⟩ := (Repository.onlyReads_load _ _ _).ok_of_bind hrest
  exact ⟨definitions, graph, hdefinitions, hgraph, (Except.ok.inj hsession).symm⟩

/-- A new reader has the stored definitions and the stored graph. -/
theorem fresh_of_openStory {id : Identifier}
    (h : ((openStory id.spelling false).run records).1 = .ok session) :
    session = fresh id.spelling (Stored.definitions records id) (Stored.graph records id) := by
  obtain ⟨definitions, graph, hdefinitions, hgraph, rfl⟩ := exists_fresh_of_openStory h
  rw [Repository.loaded_of_run hdefinitions, Repository.loaded_of_run hgraph]
  rfl

/-- The session at the position that is stored as the current one, if that can be read. -/
def resumed (session : Session) (records : Records) : Session :=
  (((records.get? (Repository.slotKey session.story Repository.autosaveSlot)).bind
    Repository.parsedSlot).map fun position =>
      session.withPlayer (session.player.resume position)).getD session

theorem openStory_restoring (story : String) :
    openStory story true = do
      let session ← openStory story false
      return (← session.loadSave Repository.autosaveSlot).getD session := by
  simp only [openStory, build, bind_assoc, pure_bind, if_true, Bool.false_eq_true, if_false]

/-- Opening a story at its current position is opening it for a new reader and then going there. -/
theorem run_openStory_restoring (story : String) (records : Records) :
    (openStory story true).run records =
      (((openStory story false).run records).1.map fun session => session.resumed records,
        records) := by
  rw [openStory_restoring, (onlyReads_openStory story false).run_bind]
  cases ((openStory story false).run records).1 <;> rfl

/-- Starting again forgets where the session was. -/
theorem restart_resumed (session : Session) (records : Records) :
    (session.resumed records).restart = session.restart := by
  rw [resumed]
  cases (records.get? _).bind Repository.parsedSlot <;> rfl

theorem definitions_resumed (session : Session) (records : Records) :
    (session.resumed records).story = session.story ∧
      (session.resumed records).store.definitions = session.store.definitions := by
  rw [resumed]
  cases (records.get? _).bind Repository.parsedSlot <;> exact ⟨rfl, rfl⟩

/-- An opened session is that of a new reader, perhaps gone to the current position. -/
theorem exists_opened_of_openStory {story : String} {restores : Bool}
    (h : ((openStory story restores).run records).1 = .ok session) :
    ∃ opened, ((openStory story false).run records).1 = .ok opened ∧
      (session = opened ∨ session = opened.resumed records) := by
  cases restores with
  | false => exact ⟨session, h, Or.inl rfl⟩
  | true =>
    rw [run_openStory_restoring] at h
    cases hopen : ((openStory story false).run records).1 with
    | error failure =>
      rw [hopen] at h
      exact absurd h (by simp [Except.map])
    | ok opened =>
      rw [hopen] at h
      exact ⟨opened, rfl, Or.inr (Except.ok.inj h).symm⟩

/-- An opened story has the definitions that are stored. -/
theorem definitions_of_openStory {id : Identifier} {restores : Bool}
    (h : ((openStory id.spelling restores).run records).1 = .ok session) :
    session.story = id.spelling ∧ session.store.definitions = Stored.definitions records id := by
  obtain ⟨opened, hopened, rfl | rfl⟩ := exists_opened_of_openStory h
  · rw [fresh_of_openStory hopened]
    exact ⟨rfl, rfl⟩
  · rw [fresh_of_openStory hopened]
    exact definitions_resumed _ records

end Session

end Narrative
