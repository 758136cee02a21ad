import Narrative.Proofs.Service.Persisted
import Narrative.Proofs.Story.Rooted

/-!
# Created nodes

A node is created under the first key from the clock on that no node has: the search ends there
however many keys are taken, and nothing but the new node is added.  An edit other than the removal
of a node keeps all nodes, so a run of such edits never creates two nodes under one key, whatever
the clock tells and however often it tells the same.  After a removal the key of the removed node
may be given out again.
-/

namespace Narrative

variable {session result : Session} {now : Instant} {records after : Records} {time : ℤ}

/-! ## One node -/

/-- A node has been created at a time under a key: the key carries the least number from the time
on whose key no node has, the node comes behind all others, and nothing else has changed. -/
structure Session.Created (session : Session) (time : ℤ) (key : String) (result : Session) :
    Prop where
  number : ∃ number, key = Graph.numberedKey number ∧
    Graph.Finds (fun other => session.graph.hasNode (Graph.numberedKey other)) time number ∧
    IsLeast {other | time ≤ other ∧ ¬session.graph.hasNode (Graph.numberedKey other)} number
  entries : result.graph.nodes.entries = session.graph.nodes.entries ++ [(key, .placeholder key)]
  others : result = { session with graph := { session.graph with nodes := result.graph.nodes } }

namespace Session

theorem created_addNode (session : Session) (time : ℤ) :
    session.Created time (session.graph.freshKey time)
      { session with graph := session.graph.addNode (session.graph.freshKey time) } where
  number := by
    obtain ⟨number, hkey, hfinds⟩ := session.graph.exists_freshKey time
    have hleast := hfinds.isLeast
    simp only [← Bool.not_eq_true] at hleast
    exact ⟨number, hkey, hfinds, hleast⟩
  entries := by
    have hfresh : session.graph.nodes.get? (session.graph.freshKey time) = none :=
      Table.contains_eq_false.1 (Bool.eq_false_iff.2 (session.graph.hasNode_freshKey time))
    exact Table.entries_insert_of_notMem _ hfresh
  others := rfl

theorem run_createNode (session : Session) (hnow : now.millis = .ok time) (records : Records) :
    (session.createNode now).run records =
      (.ok (session.graph.freshKey time,
          { session with graph := session.graph.addNode (session.graph.freshKey time) }),
        records.insert (Repository.graphKey session.story)
          (session.graph.addNode (session.graph.freshKey time)).toJson.text) := by
  rw [createNode, hnow]
  rfl

theorem run_createNode_of_error (session : Session) {failure : Failure}
    (hnow : now.millis = .error failure) (records : Records) :
    (session.createNode now).run records = (.error failure, records) := by
  rw [createNode, hnow]
  rfl

end Session

namespace Edit

variable {edit : Edit} {done : Bool}

theorem Redraws.extends {before changed : Graph} (h : edit.Redraws now before changed)
    (hkeeps : ∀ node, edit ≠ removeNode node) : before.Extends changed := by
  cases edit with
  | saveGraph =>
    obtain rfl : changed = before := h
    exact .refl changed
  | createNode =>
    obtain ⟨time, -, ⟨hfresh, hentries⟩⟩ := h
    have hinsert := Table.entries_insert_of_notMem (.placeholder (before.freshKey time))
      (Table.findEntry_eq_none.2 hfresh)
    rw [Table.ext_entries (hentries.trans hinsert.symm)]
    exact before.extends_addNode (before.freshKey time)
  | removeNode node => exact absurd rfl (hkeeps node)
  | patchNode =>
    refine Graph.extends_of_rewritten (fun old new hchange => ?_) h
    rw [← hchange]
    rfl
  | addChoice | removeChoice | patchChoice | patchCondition | addOperation | removeOperation
  | patchOperation => exact Graph.extends_of_choicesChanged h
  | look | addVariable | patchVariable | removeVariable => exact h.elim

theorem Leaves.extends (h : edit.Leaves session now records (.ok (done, result), after))
    (hkeeps : ∀ node, edit ≠ removeNode node) : session.graph.Extends result.graph := by
  cases h with
  | refused | redefined => exact .refl session.graph
  | redrawn hredraws => exact hredraws.extends hkeeps

/-! ## Runs -/

/-- Make an edit, and tell the key of the node that it creates. -/
def tell (session : Session) (now : Instant) : Edit → Attempt (Option String × Session)
  | createNode => do
    let (key, session) ← session.createNode now
    return (some key, session)
  | edit => do
    let (_, session) ← edit.perform session now
    return (none, session)

/-- Make edits one after the other, each at its time, and tell the keys of the nodes that they
create.  An edit that fails leaves the session as it is. -/
def tellAll (session : Session) (records : Records) :
    List (Edit × Instant) → List String × Session × Records
  | [] => ([], session, records)
  | (edit, now) :: rest =>
    match (edit.tell session now).run records with
    | (.ok (key?, session), records) =>
      let (keys, last) := tellAll session records rest
      (key?.toList ++ keys, last)
    | (.error _, records) => tellAll session records rest

/-- What is told of an edit: a key that no node had, and that one has afterwards.  All nodes that
there were are still there. -/
structure Told (session : Session) (key? : Option String) (result : Session) : Prop where
  keeps : ∀ key, session.graph.hasNode key → result.graph.hasNode key
  fresh : ∀ key ∈ key?, ¬session.graph.hasNode key ∧ result.graph.hasNode key

theorem told_of_tell {key? : Option String} (hkeeps : ∀ node, edit ≠ removeNode node)
    (h : (edit.tell session now).run records = (.ok (key?, result), after)) :
    Told session key? result := by
  have hother (hkey : (edit.perform session now >>= fun (_, session) =>
        return ((none : Option String), session)).run records = (.ok (key?, result), after)) :
      Told session key? result := by
    have hleaves := edit.leaves_perform session now records
    rw [Attempt.run_bind] at hkey
    rcases hstep : (edit.perform session now).run records with ⟨failure | ⟨done, next⟩, between⟩
    · rw [hstep] at hkey
      exact absurd (congrArg Prod.fst hkey) (by simp)
    · rw [hstep] at hkey hleaves
      cases hkey
      exact ⟨(hleaves.extends hkeeps).hasNode, by simp⟩
  cases edit with
  | createNode =>
    cases hnow : now.millis with
    | error failure =>
      rw [tell, Attempt.run_bind, session.run_createNode_of_error hnow] at h
      exact absurd (congrArg Prod.fst h) (by simp)
    | ok time =>
      rw [tell, Attempt.run_bind, session.run_createNode hnow] at h
      cases h
      refine ⟨(session.graph.extends_addNode _).hasNode, fun key hkey => ?_⟩
      obtain rfl := Option.some.inj hkey
      exact ⟨session.graph.hasNode_freshKey time,
        (Graph.hasNode_insert ..).2 (Or.inr rfl)⟩
  | _ => exact hother h

/-- Edits that keep all nodes create theirs under keys of their own. -/
theorem tellAll_fresh {edits : List (Edit × Instant)}
    (hkeeps : ∀ step ∈ edits, ∀ node, step.1 ≠ removeNode node) (session : Session)
    (records : Records) :
    (tellAll session records edits).1.Nodup ∧
      (∀ key, session.graph.hasNode key →
        (tellAll session records edits).2.1.graph.hasNode key) ∧
      ∀ key ∈ (tellAll session records edits).1, ¬session.graph.hasNode key ∧
        (tellAll session records edits).2.1.graph.hasNode key := by
  induction edits generalizing session records with
  | nil => exact ⟨List.nodup_nil, fun _ h => h, fun _ h => absurd h List.not_mem_nil⟩
  | cons head rest ih =>
    obtain ⟨edit, now⟩ := head
    have hrest := ih fun step hstep => hkeeps step (List.mem_cons_of_mem _ hstep)
    rw [tellAll]
    rcases hstep : (edit.tell session now).run records with ⟨failure | ⟨key?, next⟩, between⟩
    · exact hrest session between
    · have htold := told_of_tell (hkeeps _ (List.mem_cons_self ..)) hstep
      obtain ⟨hnodup, hlast, hfresh⟩ := hrest next between
      refine ⟨?_, fun key hkey => hlast key (htold.keeps key hkey), fun key hkey => ?_⟩
      · refine List.nodup_append.2 ⟨by cases key? <;> simp, hnodup, ?_⟩
        -- The key told first is that of a node by the time the others are told.
        rintro key hkey other hother rfl
        exact (hfresh key hother).1 (htold.fresh key (Option.mem_toList.1 hkey)).2
      · rcases List.mem_append.1 hkey with hfirst | hlater
        · obtain ⟨hnew, hthere⟩ := htold.fresh key (Option.mem_toList.1 hfirst)
          exact ⟨hnew, hlast key hthere⟩
        · obtain ⟨hnew, hthere⟩ := hfresh key hlater
          exact ⟨fun hold => hnew (htold.keeps key hold), hthere⟩

end Edit

/-- Creating a node ends whatever keys the nodes of the graph have.  At a time that the clock can
tell, the key of the node carries the least number from the time on whose key is free, the node
comes behind the others, which stay, and the graph is stored; without such a time nothing changes.
So a run of edits that removes no node creates its nodes under distinct keys, which no node had
before the run, at whatever times it makes them. -/
theorem created_keys (session : Session) (records : Records) :
    (∀ (now : Instant) time, now.millis = .ok time → ∃ key result,
      (session.createNode now).run records = (.ok (key, result),
        records.insert (Repository.graphKey session.story) result.graph.toJson.text) ∧
      session.Created time key result) ∧
    (∀ (now : Instant) failure, now.millis = .error failure →
      (session.createNode now).run records = (.error failure, records)) ∧
    ∀ edits, (∀ step ∈ edits, ∀ node, step.1 ≠ Edit.removeNode node) →
      (Edit.tellAll session records edits).1.Nodup ∧
      ∀ key ∈ (Edit.tellAll session records edits).1, ¬session.graph.hasNode key ∧
        (Edit.tellAll session records edits).2.1.graph.hasNode key := by
  refine ⟨fun now time hnow => ?_, fun now failure hnow => ?_, fun edits hkeeps => ?_⟩
  · exact ⟨_, _, session.run_createNode hnow records, session.created_addNode time⟩
  · exact session.run_createNode_of_error hnow records
  · obtain ⟨hnodup, -, hfresh⟩ := Edit.tellAll_fresh hkeeps session records
    exact ⟨hnodup, hfresh⟩

/-- Two nodes that are created in a new story at the same time have different keys. -/
theorem created_keys_newStory :
    ∃ first second result, Edit.tellAll (Stored.session newStory ⟨1⟩) newStory
        [(.createNode, ⟨0.0⟩), (.saveGraph, ⟨0.0⟩), (.createNode, ⟨0.0⟩)] =
        ([first, second], result) ∧ first ≠ second := by
  have htold : ∃ first second result, Edit.tellAll (Stored.session newStory ⟨1⟩) newStory
      [(.createNode, ⟨0.0⟩), (.saveGraph, ⟨0.0⟩), (.createNode, ⟨0.0⟩)] =
      ([first, second], result) := by
    rw [Stored.session_newStory]
    exact ⟨_, _, _, rfl⟩
  obtain ⟨first, second, result, htold⟩ := htold
  have hkeys := (created_keys (Stored.session newStory ⟨1⟩) newStory).2.2
    [(.createNode, ⟨0.0⟩), (.saveGraph, ⟨0.0⟩), (.createNode, ⟨0.0⟩)] (by simp)
  rw [htold] at hkeys
  exact ⟨first, second, result, htold, by simpa using hkeys.1⟩

end Narrative
