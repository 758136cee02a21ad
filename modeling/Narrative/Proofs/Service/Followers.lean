import Narrative.Proofs.Service.Messages
import Mathlib.Data.List.Induction

/-!
# Followers of a story

Whether a socket follows a story can be told from what has been asked of the hub so far: the last
connection that the socket accepted must not have been followed by a disconnection, nor by a
broadcast that found the socket dead.  A broadcast reaches every follower that is alive, once, and
no other socket; the dead ones do not follow the story any more, and other stories do not notice.
-/

namespace Narrative

namespace Hub

variable {σ : Type} [DecidableEq σ]

/-- Send to sockets one after the other: those that are reached, and those that fail. -/
def sendEach (alive : σ → Bool) : List σ → List σ × List σ
  | [] => ([], [])
  | socket :: rest =>
    let (reached, dead) := sendEach alive rest
    if alive socket then (socket :: reached, dead) else (reached, socket :: dead)

/-- Drop sockets one after the other. -/
def dropEach (dead members : List σ) : List σ :=
  dead.foldl (fun members socket => members.filter (· ≠ socket)) members

omit [DecidableEq σ] in
theorem sendEach_eq (alive : σ → Bool) (members : List σ) :
    sendEach alive members = (members.filter alive, members.filter (!alive ·)) := by
  induction members with
  | nil => rfl
  | cons socket rest ih =>
    rw [sendEach, ih]
    cases h : alive socket <;> simp [h]

theorem dropEach_eq (dead members : List σ) :
    dropEach dead members = members.filter (· ∉ dead) := by
  induction dead generalizing members with
  | nil => simp [dropEach]
  | cons socket rest ih =>
    change dropEach rest (members.filter (· ≠ socket)) = _
    rw [ih, List.filter_filter]
    refine List.filter_congr fun member _ => ?_
    simp [Bool.and_comm]

/-- A socket that fails does not keep the others from being reached: a broadcast is as good as
trying all followers in turn and dropping those that failed in the end. -/
theorem broadcast_eq_sendEach (hub : Hub σ) (alive : σ → Bool) (story : String) :
    hub.broadcast alive story =
      let (reached, dead) := sendEach alive (hub.members story)
      (reached, if dead.isEmpty then hub
        else hub.setMembers story (dropEach dead (hub.members story))) := by
  rw [broadcast, sendEach_eq]
  simp only
  congr 1
  have hempty : ((hub.members story).filter (!alive ·)).isEmpty =
      (hub.members story).all alive := by
    rw [Bool.eq_iff_iff, List.isEmpty_iff, List.filter_eq_nil_iff, List.all_eq_true]
    simp
  have hleft : (hub.members story).filter alive =
      dropEach ((hub.members story).filter (!alive ·)) (hub.members story) := by
    rw [dropEach_eq]
    refine List.filter_congr fun member hmember => ?_
    simp [hmember]
  rw [hempty, ← hleft]

/-! ## Calls -/

/-- What can be asked of a hub. -/
inductive Call (σ : Type) where
  /-- Let a socket follow a story. -/
  | connect (story : String) (socket : σ)
  /-- Let a socket no longer follow a story. -/
  | disconnect (story : String) (socket : σ)
  /-- Send a payload to the followers of a story. -/
  | broadcast (story : String) (payload : Json)
  /-- Send to the followers of a story that it has changed. -/
  | storyUpdated (story : String)

/-- The story to which a call sends, and the payload. -/
def Call.message? : Call σ → Option (String × Json)
  | broadcast story payload => some (story, payload)
  | storyUpdated story => some (story, Hub.storyUpdated story)
  | _ => none

/-- A call, and which sockets are alive when it is made. -/
structure Moment (σ : Type) where
  /-- The call. -/
  call : Call σ
  /-- The sockets that are alive. -/
  alive : σ → Bool

/-- What comes of a call. -/
structure Effect (σ : Type) where
  /-- The call has failed. -/
  raised : Bool := false
  /-- The sockets that are sent to, and what they are sent. -/
  sent : List (σ × Json) := []
  /-- The hub afterwards. -/
  hub : Hub σ

/-- Send a payload to the followers of a story. -/
def announce (hub : Hub σ) (alive : σ → Bool) (story : String) (payload : Json) : Effect σ :=
  let (reached, hub) := hub.broadcast alive story
  { sent := reached.map (·, payload), hub }

/-- Carry out a call. -/
def perform (hub : Hub σ) (moment : Moment σ) : Effect σ :=
  match moment.call with
  | .connect story socket =>
    match hub.connect moment.alive story socket with
    | some hub => { hub }
    | none => { raised := true, hub }
  | .disconnect story socket => { hub := hub.disconnect story socket }
  | .broadcast story payload => hub.announce moment.alive story payload
  | .storyUpdated story => hub.announce moment.alive story (Hub.storyUpdated story)

/-- The hub after some calls. -/
def after (moments : List (Moment σ)) : Hub σ :=
  moments.foldl (fun hub moment => (hub.perform moment).hub) {}

theorem after_append (moments : List (Moment σ)) (moment : Moment σ) :
    after (moments ++ [moment]) = ((after moments).perform moment).hub := by
  rw [after, List.foldl_append]
  rfl

omit [DecidableEq σ] in
theorem members_broadcast (hub : Hub σ) (alive : σ → Bool) (story other : String) :
    (hub.broadcast alive story).2.members other =
      if story = other then (hub.members story).filter alive else hub.members other := by
  rw [broadcast]
  simp only
  split
  case isTrue hall =>
    split
    case isTrue hstory =>
      rw [← hstory, List.filter_eq_self.2 (List.all_eq_true.1 hall)]
    case isFalse => rfl
  case isFalse => rw [members_setMembers]

theorem mem_members_of_connect {hub next : Hub σ} {alive : σ → Bool} {story other : String}
    {socket member : σ} (h : hub.connect alive story socket = some next) :
    member ∈ next.members other ↔
      (other = story ∧ member = socket) ∨ member ∈ hub.members other := by
  unfold connect at h
  split at h
  case isFalse => exact absurd h (by simp)
  case isTrue =>
    rw [← Option.some.inj h]
    split
    case isTrue hmember =>
      refine (or_iff_right_of_imp ?_).symm
      rintro ⟨rfl, rfl⟩
      exact hmember
    case isFalse =>
      rw [members_setMembers]
      split
      case isTrue hstory => simp [hstory, or_comm]
      case isFalse hstory => simp [Ne.symm hstory]

theorem mem_members_disconnect {hub : Hub σ} {story other : String} {socket member : σ} :
    member ∈ (hub.disconnect story socket).members other ↔
      member ∈ hub.members other ∧ ¬(other = story ∧ member = socket) := by
  rw [disconnect]
  split
  case isTrue =>
    rw [members_setMembers]
    split
    case isTrue hstory => simp [← hstory]
    case isFalse hstory => simp [Ne.symm hstory]
  case isFalse hmember =>
    refine (and_iff_left_of_imp fun hother => ?_).symm
    rintro ⟨rfl, rfl⟩
    exact hmember hother

theorem disconnect_of_notMem {hub : Hub σ} {story : String} {socket : σ}
    (h : socket ∉ hub.members story) : hub.disconnect story socket = hub := if_neg h

theorem connect_eq_none {hub : Hub σ} {alive : σ → Bool} {story : String} {socket : σ} :
    hub.connect alive story socket = none ↔ ¬alive socket := by
  unfold connect
  split <;> simp [*]

theorem alive_of_connect {hub next : Hub σ} {alive : σ → Bool} {story : String} {socket : σ}
    (h : hub.connect alive story socket = some next) : alive socket := by
  by_contra hdead
  rw [connect_eq_none.2 hdead] at h
  exact absurd h (by simp)

theorem perform_of_message {hub : Hub σ} {moment : Moment σ} {story : String} {payload : Json}
    (h : moment.call.message? = some (story, payload)) :
    hub.perform moment = hub.announce moment.alive story payload := by
  rw [perform]
  cases hcall : moment.call <;> rw [hcall] at h <;> cases h <;> rfl

/-- Connecting a dead socket fails and changes nothing. -/
theorem perform_of_connect (hub : Hub σ) {moment : Moment σ} {story : String} {socket : σ}
    (h : moment.call = .connect story socket) :
    let effect := hub.perform moment
    (effect.raised ↔ ¬moment.alive socket) ∧ (effect.raised → effect.hub = hub) ∧
      effect.sent = [] := by
  simp only [perform, h]
  cases hconnect : hub.connect moment.alive story socket with
  | none => simpa using connect_eq_none.1 hconnect
  | some next =>
    simp [alive_of_connect hconnect]

theorem perform_of_disconnect {hub : Hub σ} {moment : Moment σ} {story : String} {socket : σ}
    (h : moment.call = .disconnect story socket) :
    hub.perform moment = { hub := hub.disconnect story socket } := by
  simp only [perform, h]

namespace Moment

/-- The socket accepts a connection to the story. -/
def Joins (moment : Moment σ) (story : String) (socket : σ) : Prop :=
  moment.call = .connect story socket ∧ moment.alive socket

/-- The socket is disconnected from the story, or found dead by a broadcast to it. -/
def Drops (moment : Moment σ) (story : String) (socket : σ) : Prop :=
  moment.call = .disconnect story socket ∨
    (∃ payload, moment.call.message? = some (story, payload)) ∧ ¬moment.alive socket

end Moment

/-- The last connection to the story that the socket accepted was not followed by anything that
drops it. -/
def Stays (moments : List (Moment σ)) (story : String) (socket : σ) : Prop :=
  ∃ before moment later, moments = before ++ moment :: later ∧ moment.Joins story socket ∧
    (∀ next ∈ later, ¬next.Joins story socket) ∧ ∀ next ∈ later, ¬next.Drops story socket

/-- A call lets a socket follow a story, or drops it, or makes no difference to it. -/
theorem mem_members_perform (hub : Hub σ) (moment : Moment σ) (story : String) (socket : σ) :
    socket ∈ (hub.perform moment).hub.members story ↔
      moment.Joins story socket ∨ socket ∈ hub.members story ∧ ¬moment.Drops story socket := by
  have hannounce (alive : σ → Bool) (told : String) (payload : Json) :
      socket ∈ (hub.announce alive told payload).hub.members story ↔
        socket ∈ hub.members story ∧ ¬(told = story ∧ ¬alive socket) := by
    rw [announce]
    simp only [members_broadcast]
    split
    case isTrue hstory => simp [hstory]
    case isFalse hstory => simp [hstory]
  obtain ⟨call, alive⟩ := moment
  unfold perform Moment.Joins Moment.Drops
  cases call with
  | connect joined member =>
    simp only [Call.connect.injEq, Call.message?, reduceCtorEq, exists_const, false_and, or_self,
      not_false_eq_true, and_true]
    cases hconnect : hub.connect alive joined member with
    | none =>
      have hdead := connect_eq_none.1 hconnect
      refine (or_iff_right ?_).symm
      rintro ⟨⟨rfl, rfl⟩, halive⟩
      exact hdead halive
    | some next =>
      have halive : alive member := alive_of_connect hconnect
      simp only [mem_members_of_connect hconnect]
      refine or_congr_left ⟨?_, ?_⟩
      · rintro ⟨rfl, rfl⟩
        exact ⟨⟨rfl, rfl⟩, halive⟩
      · rintro ⟨⟨rfl, rfl⟩, -⟩
        exact ⟨rfl, rfl⟩
  | disconnect left member =>
    simp only [mem_members_disconnect, Call.disconnect.injEq, Call.message?, reduceCtorEq,
      exists_const, false_and, or_false, false_or]
    simp only [eq_comm]
  | broadcast told payload =>
    simp only [hannounce]
    simp [Call.message?]
  | storyUpdated told =>
    simp only [hannounce]
    simp [Call.message?]

omit [DecidableEq σ] in
/-- What some calls and one more mean for a socket. -/
theorem stays_append (moments : List (Moment σ)) (moment : Moment σ) (story : String)
    (socket : σ) :
    Stays (moments ++ [moment]) story socket ↔
      moment.Joins story socket ∨
        Stays moments story socket ∧ ¬moment.Drops story socket := by
  constructor
  · rintro ⟨before, joining, later, hmoments, hjoins, hlast, hkept⟩
    rcases List.eq_nil_or_concat later with rfl | ⟨more, last, rfl⟩
    · obtain ⟨-, hlast⟩ := List.append_inj' hmoments rfl
      rw [List.singleton_inj.1 hlast]
      exact Or.inl hjoins
    · rw [List.concat_eq_append, ← List.cons_append, ← List.append_assoc] at hmoments
      obtain ⟨rfl, heq⟩ := List.append_inj' hmoments rfl
      obtain rfl := List.singleton_inj.1 heq
      simp only [List.concat_eq_append, List.forall_mem_append, List.forall_mem_singleton]
        at hlast hkept
      exact Or.inr ⟨⟨before, joining, more, rfl, hjoins, hlast.1, hkept.1⟩, hkept.2⟩
  · intro h
    by_cases hjoins : moment.Joins story socket
    · exact ⟨moments, moment, [], rfl, hjoins, by simp, by simp⟩
    · obtain ⟨⟨before, joining, later, rfl, hjoined, hlast, hkept⟩, hdrops⟩ := h.resolve_left hjoins
      refine ⟨before, joining, later ++ [moment], by simp, hjoined, ?_, ?_⟩
      · simpa only [List.forall_mem_append, List.forall_mem_singleton] using ⟨hlast, hjoins⟩
      · simpa only [List.forall_mem_append, List.forall_mem_singleton] using ⟨hkept, hdrops⟩

/-! ## Runs -/

/-- Who follows a story is told by the calls that have been made. -/
theorem mem_members_after (moments : List (Moment σ)) (story : String) (socket : σ) :
    socket ∈ (after moments).members story ↔ Stays moments story socket := by
  induction moments using List.reverseRecOn with
  | nil => simp [after, members, Table.get?_empty, Stays]
  | append_singleton moments moment ih =>
    rw [after_append, mem_members_perform, stays_append, ih]

theorem formed_perform {hub : Hub σ} (h : hub.Formed) (moment : Moment σ) :
    (hub.perform moment).hub.Formed := by
  rw [perform]
  split
  case h_1 story socket _ =>
    split
    case h_1 next hconnect => exact .connect h moment.alive story socket hconnect
    case h_2 => exact h
  case h_2 story socket _ => exact .disconnect h story socket
  case h_3 story payload _ => exact .broadcast h moment.alive story
  case h_4 story _ => exact .broadcast h moment.alive story

theorem formed_after (moments : List (Moment σ)) : (after moments).Formed := by
  induction moments using List.reverseRecOn with
  | nil => exact .empty
  | append_singleton moments moment ih =>
    rw [after_append]
    exact formed_perform ih moment

/-- Followers that are alive are told once, nobody else is told, and only they go on following. -/
theorem announce_spec {hub : Hub σ} (h : hub.Formed) (alive : σ → Bool) (story : String)
    (payload : Json) :
    let effect := hub.announce alive story payload
    effect.raised = false ∧
    (∀ socket, effect.sent.filter (fun entry => entry.1 = socket) =
      if socket ∈ hub.members story ∧ alive socket then [(socket, payload)] else []) ∧
    (∀ socket, socket ∈ effect.hub.members story ↔ socket ∈ hub.members story ∧ alive socket) ∧
    ∀ other, other ≠ story → effect.hub.members other = hub.members other := by
  refine ⟨rfl, fun socket => ?_, fun socket => ?_, fun other hother => ?_⟩
  · exact Service.filter_sent (h.nodup_members story) alive payload socket
  · rw [announce, members_broadcast, if_pos rfl, List.mem_filter]
  · rw [announce, members_broadcast, if_neg hother.symm]

/-- After any calls, with sockets dying and coming back between them, a socket follows a story
exactly if the last connection that it accepted was not followed by anything that drops it.  Of the
calls that may come next, a broadcast reaches the followers that are alive, each once, and these are
the followers that are left; connecting fails exactly for a dead socket, and then changes nothing;
and disconnecting changes nothing for a socket that does not follow the story. -/
theorem followers_of_run (moments : List (Moment σ)) :
    (∀ story socket, socket ∈ (after moments).members story ↔ Stays moments story socket) ∧
    ∀ moment : Moment σ,
      let hub := after moments
      let effect := hub.perform moment
      (∀ story payload, moment.call.message? = some (story, payload) →
        effect.raised = false ∧
        (∀ socket, effect.sent.filter (fun entry => entry.1 = socket) =
          if socket ∈ hub.members story ∧ moment.alive socket then [(socket, payload)] else []) ∧
        (∀ socket, socket ∈ effect.hub.members story ↔
          socket ∈ hub.members story ∧ moment.alive socket) ∧
        ∀ other, other ≠ story → effect.hub.members other = hub.members other) ∧
      (moment.call.message? = none → effect.sent = []) ∧
      (∀ story socket, moment.call = .connect story socket →
        (effect.raised ↔ ¬moment.alive socket) ∧ (effect.raised → effect.hub = hub)) ∧
      ∀ story socket, moment.call = .disconnect story socket →
        effect.raised = false ∧ (socket ∉ hub.members story → effect.hub = hub) := by
  refine ⟨mem_members_after moments, fun moment => ⟨fun story payload hmessage => ?_,
    fun hmessage => ?_, fun story socket hcall => ?_, fun story socket hcall => ?_⟩⟩
  · rw [perform_of_message hmessage]
    exact announce_spec (formed_after moments) moment.alive story payload
  · cases hcall : moment.call with
    | connect story socket => exact (perform_of_connect _ hcall).2.2
    | disconnect story socket => rw [perform_of_disconnect hcall]
    | broadcast | storyUpdated => exact absurd hmessage (by simp [hcall, Call.message?])
  · obtain ⟨hraised, hhub, -⟩ := perform_of_connect (after moments) hcall
    exact ⟨hraised, hhub⟩
  · rw [perform_of_disconnect hcall]
    exact ⟨rfl, disconnect_of_notMem⟩

end Hub

end Narrative
