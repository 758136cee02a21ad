import Narrative.Proofs.Service.Footprints

/-!
# Scripts under a lock

A request that changes a story asks for the lock of the story first.  If somebody else holds it the
request gives up; otherwise it reads and writes as requests on the story may, and in the end gives
the lock back.  Scripts are carried out command by command here, since others may get in between.
-/

namespace Narrative

namespace Identifier

variable {id other : Identifier} {key : String}

/-- The key is guarded by the lock of the story: it is the lock itself or a key of the story. -/
def Guards (id : Identifier) (key : String) : Prop := key = (StoreKey.lock id).text ∨ id.Owns key

theorem Guards.eq (h : id.Guards key) (hother : other.Guards key) : id = other := by
  rcases h with rfl | h
  · rcases hother with hlock | hother
    · exact StoreKey.lock.inj (StoreKey.text_injective hlock)
    · exact absurd hother (not_owns_lock other id)
  · rcases hother with rfl | hother
    · exact absurd h (not_owns_lock id other)
    · exact h.eq hother

theorem not_guards_lock (hne : other ≠ id) : ¬id.Guards (StoreKey.lock other).text :=
  fun hguards => hne (Guards.eq (Or.inl rfl) hguards)

/-- What a request sees is guarded by the lock of its story or by none. -/
theorem Sees.eq (h : id.Sees key) (hother : other.Guards key) : id = other := by
  rcases hother with rfl | hother
  · exact absurd h (not_sees_lock id other)
  · rcases h with rfl | h
    · exact absurd hother (not_owns_catalog other)
    · exact h.eq hother

end Identifier

namespace Script

variable {α β : Type} {id other : Identifier} {script : Script α}

/-- The script and the store after the next command. -/
def step : Script α → Records → Script α × Records
  | done result, records => (done result, records)
  | read key next, records => (next (records.get? key), records)
  | write key value next, records => (next, records.insert key value)
  | claim key value next, records =>
    if records.contains key then (next false, records)
    else (next true, records.insert key value)
  | remove key next, records => (next, records.erase key)

/-- Carrying out a script command by command is carrying it out. -/
theorem run_step (script : Script α) (records : Records) :
    (script.step records).1.run (script.step records).2 = script.run records := by
  cases script with
  | done | read | write | remove => rfl
  | claim key value next =>
    simp only [step, run]
    split <;> rfl

/-! ## Holding a lock -/

/-- What is left of a script that holds the lock of a story. -/
inductive Holds (id : Identifier) : Script α → Prop where
  | intro {β : Type} {body : Script β} (finish : β → α)
      (h : body.Confined id.Sees id.Owns fun _ => True) :
      Holds id (body.bind fun result => remove (StoreKey.lock id).text (done (finish result)))

theorem Holds.map (h : script.Holds id) (f : α → β) :
    (script.bind fun result => done (f result)).Holds id := by
  obtain ⟨finish, hbody⟩ := h
  rw [bind_assoc]
  exact .intro (fun result => f (finish result)) hbody

theorem Holds.not_done {result : α} : ¬(done result).Holds id := by
  rintro h
  generalize hscript : (done result : Script α) = script at h
  obtain ⟨finish, hbody⟩ := h
  cases ‹Script _› <;> simp [bind] at hscript

theorem run_held {body : Script β} (finish : β → α) (records : Records) :
    (body.bind fun result => remove (StoreKey.lock id).text (done (finish result))).run records =
      (finish (body.run records).1, (body.run records).2.erase (StoreKey.lock id).text) :=
  run_bind body _ records

theorem Holds.get?_run (h : script.Holds id) {key : String} (hkey : ¬id.Guards key)
    (records : Records) : (script.run records).2.get? key = records.get? key := by
  obtain ⟨finish, hbody⟩ := h
  rw [Identifier.Guards, not_or] at hkey
  rw [run_held, Table.get?_erase, if_neg (Ne.symm hkey.1), hbody.get?_run hkey.2]

theorem Holds.get?_lock (h : script.Holds id) (records : Records) :
    (script.run records).2.get? (StoreKey.lock id).text = none := by
  obtain ⟨finish, hbody⟩ := h
  rw [run_held, Table.get?_erase, if_pos rfl]

/-- What a script that holds a lock does depends only on what it sees. -/
theorem Holds.run_congr (h : script.Holds id) {records after : Records}
    (hsees : ∀ key, id.Sees key → after.get? key = records.get? key) :
    (script.run after).1 = (script.run records).1 ∧
      ∀ key, id.Guards key → (script.run after).2.get? key = (script.run records).2.get? key := by
  obtain ⟨finish, hbody⟩ := h
  obtain ⟨hresult, hkeys⟩ := hbody.run_congr hsees
  rw [run_held, run_held, hresult]
  refine ⟨rfl, fun key hkey => ?_⟩
  rw [Table.get?_erase, Table.get?_erase]
  split
  · rfl
  · case isFalse hlock =>
    exact hkeys key (hsees key (Or.inr (hkey.resolve_left (Ne.symm hlock))))

/-- Whatever others do to what another lock guards makes no difference. -/
theorem Holds.run_of_frame (h : script.Holds id) (hother : id ≠ other) {records after : Records}
    (hframe : ∀ key, ¬other.Guards key → after.get? key = records.get? key) :
    (script.run after).1 = (script.run records).1 ∧
      ∀ key, id.Guards key → (script.run after).2.get? key = (script.run records).2.get? key :=
  h.run_congr fun key hkey => hframe key fun hguards => hother (hkey.eq hguards)

/-- A script that holds a lock gives it back, reads, or writes a key of the story. -/
theorem Holds.cases (h : script.Holds id) :
    (∃ result, script = remove (StoreKey.lock id).text (done result)) ∨
      (∃ key next, script = read key next ∧ ∀ found, (next found).Holds id) ∨
      ∃ key value next, script = write key value next ∧ id.Owns key ∧ next.Holds id := by
  obtain ⟨finish, hbody⟩ := h
  cases ‹Script _› with
  | done result => exact Or.inl ⟨_, rfl⟩
  | read key next =>
    exact Or.inr (Or.inl ⟨key, _, rfl, fun found => .intro finish (hbody.2 found)⟩)
  | write key value next =>
    exact Or.inr (Or.inr ⟨key, value, _, rfl, hbody.1, .intro finish hbody.2⟩)
  | claim | remove => exact hbody.elim

/-! ## Asking for a lock -/

/-- The script does nothing, or it asks for the lock of a story first and gives up if it is
refused. -/
inductive Asks (id : Identifier) (refusal : α) : Script α → Prop where
  | nothing (result : α) : Asks id refusal (done result)
  | lock (value : String) (next : Bool → Script α) (hrefused : next false = done refusal)
      (hheld : (next true).Holds id) :
      Asks id refusal (claim (StoreKey.lock id).text value next)

theorem Asks.map {refusal : α} (h : script.Asks id refusal) (f : α → β) :
    (script.bind fun result => done (f result)).Asks id (f refusal) := by
  cases h with
  | nothing result => exact .nothing (f result)
  | lock value next hrefused hheld =>
    refine .lock value _ ?_ (hheld.map f)
    rw [hrefused]
    rfl

/-- A script that asks for the lock of a story leaves all keys but those of the story as they are,
the lock included. -/
theorem Asks.get?_run {refusal : α} (h : script.Asks id refusal) {key : String}
    (hkey : ¬id.Owns key) (records : Records) :
    (script.run records).2.get? key = records.get? key := by
  cases h with
  | nothing result => rfl
  | lock value next hrefused hheld =>
    cases hlock : records.contains (StoreKey.lock id).text with
    | true =>
      simp only [run, hlock, if_true, hrefused]
    | false =>
      simp only [run, hlock, Bool.false_eq_true, if_false]
      by_cases hself : key = (StoreKey.lock id).text
      · rw [hself, hheld.get?_lock, Table.contains_eq_false.1 hlock]
      · rw [hheld.get?_run (not_or.2 ⟨hself, hkey⟩), Table.get?_insert, if_neg (Ne.symm hself)]

theorem asks_locked {attempt : Attempt α} {yields : α → Prop}
    (h : attempt.Confined id.Sees id.Owns yields) :
    (ExceptT.run (Attempt.locked (StoreKey.lock id).text attempt)).Asks id
      (.error .storyBusy) :=
  .lock "1" _ rfl (.intro (fun outcome => outcome)
    (Confined.mono h (fun _ hkey => hkey) fun _ _ => trivial))

end Script

/-- Every command asks for the lock of its story. -/
theorem Command.asks_perform (command : Command) (assets : Option Assets) (now : Instant)
    (id : Identifier) :
    (ExceptT.run (command.perform assets now id.spelling)).Asks id (.error .storyBusy) := by
  have hchanges := command.changes_perform assets now id
  generalize command.perform assets now id.spelling = attempt at hchanges
  cases hchanges with
  | refused failure => exact .nothing _
  | editing change reply hchange =>
    have hconfined := (Session.confined_openStory id).bind fun session hsession =>
      (hchange session hsession).confined.mono (fun _ => Or.inr) fun _ h => h
    rw [ExceptT.run_map]
    exact (Script.asks_locked hconfined).map (Except.map reply)

end Narrative
