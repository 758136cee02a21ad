import Narrative.Proofs.Service.Refusals

/-!
# Messages

What comes of a message: a refused one changes nothing but for the definitions that a broken import
leaves behind, one that only asks changes nothing at all, and one that changes a story is announced
once to everybody who follows that story and can be reached.
-/

namespace Narrative

open Schema

/-! ## Reading requests -/

namespace Endpoint

/-- Every request that is read at the endpoint has a property. -/
def Reads (p : Request → Prop) : Endpoint → Prop
  | plain request => ∀ value, request.value? = some value → p value
  | withBody request => ∀ body value, (request body).value? = some value → p value

theorem Reads.of_readAt {p : Request → Prop} {endpoint : Endpoint} (h : endpoint.Reads p)
    {body : Option String} {draft : Draft Request}
    (hread : Message.readAt body endpoint = .ok draft) : p draft.value := by
  have hdraft {reader : Reader Request} {document : Json}
      (hreader : ∀ document value, (reader document).value? = some value → p value)
      (hread : Message.readFrom document reader = .ok draft) : p draft.value := by
    unfold Message.readFrom at hread
    cases hdraft : Draft.read reader document with
    | error issues => exact absurd hread (by simp [hdraft, Except.mapError])
    | ok found =>
      rw [hdraft] at hread
      rw [← Except.ok.inj hread]
      exact hreader _ _ (Draft.of_read hdraft).1
  cases endpoint with
  | plain request => exact hdraft (fun _ value hvalue => h value hvalue) hread
  | withBody request =>
    obtain ⟨value, -, hrest⟩ := Except.bind_eq_ok.1 hread
    exact hdraft (fun _ _ hvalue => h _ _ hvalue) hrest

theorem ofText?_of_storyParameter {story : String} {id : Identifier}
    (h : (storyParameter story).value? = some id) : Identifier.ofText? story = some id := by
  unfold storyParameter parameter Identifier.reader at h
  cases hid : Identifier.ofText? story with
  | none => simp [hid, Checked.ofOption, Checked.fail] at h
  | some found => simpa [hid, Checked.ofOption] using h

theorem reads_asking {story : String} {query : Query} {endpoint : Endpoint}
    (h : asking story query = some endpoint) :
    endpoint.Reads fun request => request.creates = false ∧ request.changed? = none := by
  obtain rfl := Option.some.inj h
  intro value hvalue
  obtain ⟨id, -, rfl⟩ := Checked.value?_map_eq_some.1 hvalue
  exact ⟨rfl, rfl⟩

theorem reads_changing {story : String} {command : Checked Command} {endpoint : Endpoint}
    (h : changing story command = some endpoint) : endpoint.Reads fun request =>
      ∃ id wanted, Identifier.ofText? story = some id ∧ request = .command id wanted := by
  obtain rfl := Option.some.inj h
  intro value hvalue
  obtain ⟨_, wanted, hstory, -, rfl⟩ := Checked.value?_combine_eq_some.1 hvalue
  obtain ⟨id, hid, rfl⟩ := Checked.value?_map_eq_some.1 hstory
  exact ⟨id, wanted, ofText?_of_storyParameter hid, rfl⟩

theorem reads_changingBy {α : Type} {story : String} {reader : Reader α}
    {command : Checked (α → Command)} {endpoint : Endpoint}
    (h : changingBy story reader command = some endpoint) : endpoint.Reads fun request =>
      ∃ id wanted, Identifier.ofText? story = some id ∧ request = .command id wanted := by
  obtain rfl := Option.some.inj h
  intro body value hvalue
  obtain ⟨_, wanted, hstory, -, rfl⟩ := Checked.value?_combine_eq_some.1 hvalue
  obtain ⟨id, hid, rfl⟩ := Checked.value?_map_eq_some.1 hstory
  exact ⟨id, wanted, ofText?_of_storyParameter hid, rfl⟩

/-- Asking changes nothing. -/
theorem reads_of_get {resource : Resource} {endpoint : Endpoint}
    (h : of? .get resource = some endpoint) :
    endpoint.Reads fun request => request.creates = false ∧ request.changed? = none := by
  have hplain {request : Request} (hrequest : request.creates = false ∧ request.changed? = none)
      (h : some (Endpoint.plain (pure request)) = some endpoint) :
      endpoint.Reads fun request => request.creates = false ∧ request.changed? = none := by
    obtain rfl := Option.some.inj h
    intro value hvalue
    rw [← Option.some.inj hvalue]
    exact hrequest
  cases resource with
  | health | about | documentation | stories => exact hplain ⟨rfl, rfl⟩ h
  | story sid part =>
    cases part <;> first | exact reads_asking h | exact absurd h (by simp [of?, ofPart?])

/-- Whatever else can be done with a part of a story is a command on the story. -/
theorem reads_of_ne_get {method : Method} (hmethod : method ≠ .get) {sid : String}
    {part : StoryPart} {endpoint : Endpoint} (h : of? method (.story sid part) = some endpoint) :
    endpoint.Reads fun request =>
      ∃ id wanted, Identifier.ofText? sid = some id ∧ request = .command id wanted := by
  cases method with
  | get => exact absurd rfl hmethod
  | post =>
    cases part <;> first
      | exact reads_changing h
      | exact reads_changingBy h
      | exact absurd h (by simp [of?, ofPart?])
  | patch =>
    cases part <;> first
      | exact reads_changingBy h
      | exact absurd h (by simp [of?, ofPart?])
  | delete =>
    cases part <;> first
      | exact reads_changing h
      | exact absurd h (by simp [of?, ofPart?])
  | head | other => cases part <;> exact absurd h (by simp [of?, ofPart?])

end Endpoint

namespace Message

theorem endpoint_of_request {message : Message} {draft : Draft Request}
    (h : message.request = .ok draft) : ∃ resource endpoint,
      Resource.at? message.address = some resource ∧
      Endpoint.of? message.method resource = some endpoint ∧
      readAt message.body endpoint = .ok draft := by
  unfold request at h
  cases hresource : Resource.at? message.address with
  | none => simp [hresource] at h
  | some resource =>
    simp only [hresource] at h
    cases hendpoint : Endpoint.of? message.method resource with
    | none => simp [hendpoint] at h
    | some endpoint =>
      simp only [hendpoint] at h
      exact ⟨resource, endpoint, rfl, hendpoint, h⟩

theorem request_of_get {message : Message} {draft : Draft Request}
    (h : message.request = .ok draft) (hmethod : message.method = .get) :
    draft.value.creates = false ∧ draft.value.changed? = none := by
  obtain ⟨resource, endpoint, -, hendpoint, hread⟩ := endpoint_of_request h
  rw [hmethod] at hendpoint
  exact (Endpoint.reads_of_get hendpoint).of_readAt hread

theorem request_of_ne_get {message : Message} {draft : Draft Request}
    (h : message.request = .ok draft) (hmethod : message.method ≠ .get) {sid : String}
    {part : StoryPart} (hat : Resource.at? message.address = some (.story sid part)) :
    ∃ id wanted, Identifier.ofText? sid = some id ∧ draft.value = .command id wanted := by
  obtain ⟨resource, endpoint, hresource, hendpoint, hread⟩ := endpoint_of_request h
  rw [hat] at hresource
  rw [← Option.some.inj hresource] at hendpoint
  exact (Endpoint.reads_of_ne_get hmethod hendpoint).of_readAt hread

/-- How a message without a body that changes a story is read. -/
theorem request_of_changing {message : Message} {sid : String} {part : StoryPart}
    {id : Identifier} {command : Command}
    (hat : Resource.at? message.address = some (.story sid part))
    (hid : Identifier.ofText? sid = some id)
    (hpart : Endpoint.ofPart? sid message.method part = Endpoint.changing sid (pure command)) :
    message.request = .ok ⟨.command id command, none⟩ := by
  have hstory : Endpoint.storyParameter sid = .valid id := by
    rw [Endpoint.storyParameter, Endpoint.parameter, Identifier.reader, hid]
    rfl
  rw [request, hat]
  simp only [Endpoint.of?, hpart, Endpoint.changing, readAt, readFrom, hstory]
  rfl

end Message

namespace Hub

variable {σ : Type}

/-- The hubs that can come about while sockets come, go and die. -/
inductive Formed [DecidableEq σ] : Hub σ → Prop where
  | empty : Formed {}
  | connect {hub next : Hub σ} (h : Formed hub) (alive : σ → Bool) (story : String) (socket : σ)
      (hnext : hub.connect alive story socket = some next) : Formed next
  | disconnect {hub : Hub σ} (h : Formed hub) (story : String) (socket : σ) :
      Formed (hub.disconnect story socket)
  | broadcast {hub : Hub σ} (h : Formed hub) (alive : σ → Bool) (story : String) :
      Formed (hub.broadcast alive story).2

theorem nodup_setMembers {hub : Hub σ} (h : ∀ story, (hub.members story).Nodup) {story : String}
    {sockets : List σ} (hsockets : sockets.Nodup) (other : String) :
    ((hub.setMembers story sockets).members other).Nodup := by
  rw [members_setMembers]
  split
  · exact hsockets
  · exact h other

/-- A socket follows a story at most once. -/
theorem Formed.nodup_members [DecidableEq σ] {hub : Hub σ} (h : hub.Formed) (story : String) :
    (hub.members story).Nodup := by
  induction h generalizing story with
  | empty => exact List.nodup_nil
  | connect _ alive joined socket hnext ih =>
    unfold Hub.connect at hnext
    split at hnext
    case isFalse => exact absurd hnext (by simp)
    case isTrue =>
      rw [← Option.some.inj hnext]
      split
      case isTrue => exact ih story
      case isFalse hnew =>
        refine nodup_setMembers ih
          (List.nodup_append.2 ⟨ih joined, List.nodup_singleton _, ?_⟩) story
        intro member hmember other hother e
        rw [List.mem_singleton.1 hother] at e
        exact hnew (e ▸ hmember)
  | disconnect _ left socket ih =>
    unfold Hub.disconnect
    simp only
    split
    · exact nodup_setMembers ih ((ih left).filter _) story
    · exact ih story
  | broadcast _ alive told ih =>
    unfold Hub.broadcast
    simp only
    split
    · exact ih story
    · exact nodup_setMembers ih ((ih told).filter _) story

end Hub

/-- A reachable store in which others may hold locks. -/
inductive Contended : Records → Prop where
  | reachable {records : Records} (h : Reachable records) : Contended records
  | held {records : Records} (h : Contended records) (id : Identifier) (value : String) :
      Contended (records.insert (Repository.lockKey id.spelling) value)

theorem Contended.kept {records : Records} (h : Contended records) : Kept records := by
  induction h with
  | reachable h => exact h.kept
  | held h id value ih => exact ih.insert_lock id value

namespace Service

variable {σ : Type}

/-- The store after a message that is refused. -/
def afterRefusal (service : Service σ) (message : Message) : Records :=
  match message.request with
  | .ok ⟨request, none⟩ => request.afterRefusal service.assets service.records
  | _ => service.records

variable {service : Service σ} {surroundings : Surroundings σ} {message : Message}

/-- What comes of a message that is no request, or one that cannot be stored. -/
theorem take_of_not_request (service : Service σ) (surroundings : Surroundings σ)
    (h : ∀ request, message.request ≠ .ok ⟨request, none⟩) :
    ¬(service.take surroundings message).reply.IsSuccess ∧
      (service.take surroundings message).sent = [] ∧
      (service.take surroundings message).service = service ∧
      service.afterRefusal message = service.records := by
  unfold take afterRefusal
  cases hrequest : message.request with
  | error rejection =>
    refine ⟨?_, rfl, rfl, rfl⟩
    have hstatus : (message.turnDown rejection).status = rejection.reply.status := by
      unfold Message.turnDown
      split <;> rfl
    rw [Reply.IsSuccess, hstatus]
    cases rejection <;> simp [Rejection.reply, Reply.notFound, Reply.methodNotAllowed,
      Reply.unreadableBody, Reply.ofIssues, Reply.internalError, Reply.refusal, StatusCode.number]
  | ok draft =>
    obtain ⟨request, torn⟩ := draft
    cases torn with
    | none => exact absurd hrequest (h request)
    | some points =>
      simp only [refuse]
      split
      · exact ⟨Reply.not_isSuccess_ofFailure _, rfl, rfl, trivial⟩
      · exact ⟨Reply.not_isSuccess_ofFailure _, rfl, rfl, trivial⟩

/-- The run of a request on the stored texts. -/
def ran (service : Service σ) (surroundings : Surroundings σ) (request : Request) :
    Except Failure Reply × Records :=
  (request.perform service.assets (surroundings.supply service.issued) surroundings.now).run
    service.records

theorem answer_of_error {request : Request} {failure : Failure}
    (h : (service.ran surroundings request).1 = .error failure) :
    (service.answer surroundings request).reply = .ofFailure failure ∧
      (service.answer surroundings request).sent = [] ∧
      (service.answer surroundings request).service.records =
        (service.ran surroundings request).2 := by
  change (service.perform surroundings request).1 = .error failure at h
  unfold answer
  split
  case h_1 other after hperform =>
    rw [hperform] at h
    rw [Except.error.inj h]
    exact ⟨rfl, rfl, congrArg (fun result => result.2.records) hperform.symm⟩
  case h_2 reply after hperform =>
    rw [hperform] at h
    exact absurd h (by simp)

theorem answer_of_ok {request : Request} {reply : Reply}
    (h : (service.ran surroundings request).1 = .ok reply) :
    (service.answer surroundings request).reply = reply ∧
      (service.answer surroundings request).sent = (match request.changed? with
        | none => []
        | some story => ((service.hub.members story.spelling).filter surroundings.alive).map
          fun socket => (socket, Hub.storyUpdated story.spelling)) ∧
      (service.answer surroundings request).service.records =
        (service.ran surroundings request).2 := by
  change (service.perform surroundings request).1 = .ok reply at h
  unfold answer
  split
  case h_1 other after hperform =>
    rw [hperform] at h
    exact absurd h (by simp)
  case h_2 other after hperform =>
    rw [hperform] at h
    have hrecords : after.records = (service.ran surroundings request).2 :=
      congrArg (fun result => result.2.records) hperform.symm
    have hhub : after.hub = service.hub := congrArg (fun result => result.2.hub) hperform.symm
    rw [← Except.ok.inj h, ← hrecords, ← hhub]
    cases request.changed? <;> exact ⟨rfl, rfl, rfl⟩

/-- Sockets that follow a story once are told once. -/
theorem filter_sent [DecidableEq σ] {members : List σ} (h : members.Nodup) (alive : σ → Bool)
    (news : Json) (socket : σ) :
    ((members.filter alive).map fun socket => (socket, news)).filter
        (fun entry => entry.1 = socket) =
      if socket ∈ members ∧ alive socket then [(socket, news)] else [] := by
  induction members with
  | nil => rfl
  | cons member rest ih =>
    rw [List.nodup_cons] at h
    by_cases hmember : member = socket
    · subst hmember
      have hrest : ((rest.filter alive).map fun socket => (socket, news)).filter
          (fun entry => entry.1 = member) = [] := by
        rw [ih h.2, if_neg fun hin => h.1 hin.1]
      by_cases halive : alive member
      · simp only [List.filter_cons, halive, if_true, List.map_cons, decide_true, hrest]
        simp
      · simp only [List.filter_cons, halive, Bool.false_eq_true, if_false, hrest]
        simp
    · have hmem : socket ∈ member :: rest ↔ socket ∈ rest := by
        rw [List.mem_cons]
        exact or_iff_right fun e => hmember e.symm
      simp only [hmem]
      rw [← ih h.2]
      by_cases halive : alive member
      · simp only [List.filter_cons, halive, if_true, List.map_cons, hmember, decide_false,
          Bool.false_eq_true, if_false]
      · simp only [List.filter_cons, halive, Bool.false_eq_true, if_false]

section Answer

variable {request : Request}

/-- A refusal tells nobody, and the store stays but for what a broken import leaves behind. -/
theorem answer_of_refusal (h : Kept service.records) (hnow : surroundings.now.Readable)
    (hrefusal : (service.answer surroundings request).reply.IsRefusal) :
    (service.answer surroundings request).sent = [] ∧
      (service.answer surroundings request).service.records =
        request.afterRefusal service.assets service.records := by
  cases houtcome : (service.ran surroundings request).1 with
  | error failure =>
    obtain ⟨-, hsent, hrecords⟩ := answer_of_error houtcome
    exact ⟨hsent, hrecords.trans (Request.run_of_error h hnow _ _ houtcome)⟩
  | ok reply =>
    obtain ⟨hreply, hsent, hrecords⟩ := answer_of_ok houtcome
    rw [hreply] at hrefusal
    obtain ⟨time, htime⟩ := hnow
    have hstep : Step service.assets (surroundings.supply service.issued) time service.records
      request (service.ran surroundings request) := request.step h htime _ _
    generalize service.ran surroundings request = result at *
    cases hstep with
    | look _ hchanged =>
      refine ⟨by rw [hsent, hchanged], ?_⟩
      cases request with
      | command => exact absurd hchanged (by simp [Request.changed?])
      | _ => exact hrecords
    | create =>
      rw [← Except.ok.inj houtcome] at hrefusal
      exact absurd hrefusal (by simp [Reply.IsRefusal, Reply.created, StatusCode.number])
    | refuse => exact absurd houtcome (by simp)
    | change => exact absurd hrefusal (Command.isSuccess_of_plan houtcome).not_isRefusal

/-- What only looks tells nobody and changes nothing. -/
theorem answer_of_look (hcreates : request.creates = false) (hchanged : request.changed? = none) :
    (service.answer surroundings request).sent = [] ∧
      (service.answer surroundings request).service.records = service.records := by
  have hreads : (service.ran surroundings request).2 = service.records :=
    Request.onlyReads_perform hcreates hchanged _ _ _ _
  cases houtcome : (service.ran surroundings request).1 with
  | error failure =>
    obtain ⟨-, hsent, hrecords⟩ := answer_of_error houtcome
    exact ⟨hsent, hrecords.trans hreads⟩
  | ok reply =>
    obtain ⟨-, hsent, hrecords⟩ := answer_of_ok houtcome
    exact ⟨by rw [hsent, hchanged], hrecords.trans hreads⟩

/-- A change is announced once to every follower that can be reached, and no lock is left. -/
theorem answer_of_command [DecidableEq σ] (h : Kept service.records) (hhub : service.hub.Formed)
    (hnow : surroundings.now.Readable) {id : Identifier} {command : Command}
    (hsuccess : (service.answer surroundings (.command id command)).reply.IsSuccess) :
    (∀ socket, (service.answer surroundings (.command id command)).sent.filter
        (fun entry => entry.1 = socket) =
      if socket ∈ service.hub.members id.spelling ∧ surroundings.alive socket then
        [(socket, Hub.storyUpdated id.spelling)] else []) ∧
      ¬Held (service.answer surroundings (.command id command)).service.records id := by
  cases houtcome : (service.ran surroundings (.command id command)).1 with
  | error failure =>
    rw [(answer_of_error houtcome).1] at hsuccess
    exact absurd hsuccess (Reply.not_isSuccess_ofFailure failure)
  | ok reply =>
    obtain ⟨-, hsent, hrecords⟩ := answer_of_ok houtcome
    refine ⟨fun socket => ?_, ?_⟩
    · rw [hsent]
      exact filter_sent (hhub.nodup_members id.spelling) surroundings.alive _ socket
    · obtain ⟨time, htime⟩ := hnow
      have hstep : Step service.assets (surroundings.supply service.issued) time service.records
        (.command id command) (service.ran surroundings (.command id command)) :=
          Request.step h htime _ _ _
      rw [hrecords, hstep.held_iff]
      generalize service.ran surroundings (.command id command) = result at *
      cases hstep with
      | look _ hchanged => exact absurd hchanged (by simp [Request.changed?])
      | refuse => exact absurd houtcome (by simp)
      | change _ _ hfree => exact hfree

/-- What a refusal leaves behind, it leaves behind as something that cannot be processed. -/
theorem answer_of_leftover (h : Kept service.records) (hnow : surroundings.now.Readable)
    (hleftover : request.afterRefusal service.assets service.records ≠ service.records) :
    (service.answer surroundings request).reply.status = .unprocessable := by
  cases request with
  | command id command =>
    simp only [Request.afterRefusal] at hleftover
    split at hleftover
    case h_2 => exact absurd rfl hleftover
    case h_1 definitions hdefinitions =>
      split at hleftover
      case isFalse => exact absurd rfl hleftover
      case isTrue hready =>
        obtain ⟨time, htime⟩ := hnow
        have hrun := command.run_perform h hready.1 hready.2 htime service.assets
        obtain ⟨points, hpoints⟩ := command.outcome_of_leftover hdefinitions
        have houtcome : (service.ran surroundings (.command id command)).1 =
            .error (.unwritableText points) :=
          (congrArg Prod.fst hrun).trans hpoints
        rw [(answer_of_error houtcome).1]
        rfl
  | _ => exact absurd rfl hleftover

end Answer

/-- What comes of any message.  A refused one tells nobody, and it leaves the store as it is unless
it is an import that leaves its definitions behind; one that asks tells nobody and changes nothing;
one that changes a story is told once to every follower of that story that can be reached, and to
nobody else, and leaves no lock. -/
theorem take_spec [DecidableEq σ] (service : Service σ) (surroundings : Surroundings σ)
    (hrecords : Contended service.records) (hhub : service.hub.Formed)
    (hnow : surroundings.now.Readable) (message : Message) :
    ((service.take surroundings message).reply.IsRefusal →
      (service.take surroundings message).sent = [] ∧
        (service.take surroundings message).service.records = service.afterRefusal message) ∧
    (service.afterRefusal message ≠ service.records →
      (service.take surroundings message).reply.status = .unprocessable) ∧
    (message.method = .get → (service.take surroundings message).sent = [] ∧
      (service.take surroundings message).service.records = service.records) ∧
    ((service.take surroundings message).reply.IsSuccess → message.method ≠ .get →
      ∀ sid part, Resource.at? message.address = some (.story sid part) →
        ∃ id, Identifier.ofText? sid = some id ∧
          (∀ socket, (service.take surroundings message).sent.filter
              (fun entry => entry.1 = socket) =
            if socket ∈ service.hub.members id.spelling ∧ surroundings.alive socket then
              [(socket, Hub.storyUpdated id.spelling)] else []) ∧
          ¬Held (service.take surroundings message).service.records id) := by
  by_cases hrequest : ∃ request, message.request = .ok ⟨request, none⟩
  · obtain ⟨request, hrequest⟩ := hrequest
    have htake : service.take surroundings message = service.answer surroundings request := by
      rw [take, hrequest]
    have hafter : service.afterRefusal message =
        request.afterRefusal service.assets service.records := by
      rw [afterRefusal, hrequest]
    rw [htake, hafter]
    refine ⟨answer_of_refusal hrecords.kept hnow, answer_of_leftover hrecords.kept hnow, ?_, ?_⟩
    · intro hmethod
      obtain ⟨hcreates, hchanged⟩ := Message.request_of_get hrequest hmethod
      exact answer_of_look hcreates hchanged
    · intro hsuccess hmethod sid part hat
      obtain ⟨id, command, hid, rfl⟩ := Message.request_of_ne_get hrequest hmethod hat
      exact ⟨id, hid, answer_of_command hrecords.kept hhub hnow hsuccess⟩
  · obtain ⟨hfailed, hsent, hservice, hafter⟩ := take_of_not_request service surroundings
      fun request h => hrequest ⟨request, h⟩
    rw [hafter, hservice]
    exact ⟨fun _ => ⟨hsent, rfl⟩, fun h => absurd rfl h, fun _ => ⟨hsent, rfl⟩,
      fun hsuccess => absurd hsuccess hfailed⟩

/-- A service with a new story that one socket follows. -/
def followed : Service ℕ := ⟨newStory, Hub.setMembers {} (Identifier.mk 1).spelling [7], none, 1⟩

/-- What is there when a message comes: the socket is alive. -/
def lively : Surroundings ℕ := ⟨⟨1.5⟩, fun _ => ⟨2⟩, fun _ => true⟩

/-- Asking what is played. -/
def askedView : Message := ⟨.get, "/stories/00000000-0000-0000-0000-000000000001/play", none⟩

/-- Removing the node that cannot be removed. -/
def startRemoval : Message :=
  ⟨.delete, "/stories/00000000-0000-0000-0000-000000000001/nodes/start", none⟩

/-- Starting again. -/
def freshStart : Message :=
  ⟨.post, "/stories/00000000-0000-0000-0000-000000000001/play/restart", none⟩

theorem request_startRemoval :
    startRemoval.request = .ok ⟨.command ⟨1⟩ (.removeNode startNodeId), none⟩ := by
  have hat : Resource.at? startRemoval.address = some (.story
      "00000000-0000-0000-0000-000000000001" (.node startNodeId)) := by decide +kernel
  exact Message.request_of_changing hat (by decide +kernel) rfl

theorem at_freshStart : Resource.at? freshStart.address =
    some (.story "00000000-0000-0000-0000-000000000001" .restart) := by decide +kernel

theorem request_freshStart : freshStart.request = .ok ⟨.command ⟨1⟩ .restart, none⟩ :=
  Message.request_of_changing at_freshStart (by decide +kernel) rfl

/-- What is asked changes nothing; the removal is refused and changes nothing either; starting
again is told to the socket, once. -/
theorem take_spec_followed :
    ((followed.take lively askedView).sent = [] ∧
      (followed.take lively askedView).service.records = newStory) ∧
    ((followed.take lively startRemoval).reply.IsRefusal ∧
      (followed.take lively startRemoval).sent = [] ∧
      (followed.take lively startRemoval).service.records = newStory) ∧
    (followed.take lively freshStart).reply.IsSuccess ∧
      (followed.take lively freshStart).sent.filter (fun entry => entry.1 = 7) =
        [(7, Hub.storyUpdated (Identifier.mk 1).spelling)] ∧
      ¬Held (followed.take lively freshStart).service.records ⟨1⟩ := by
  have hnow : lively.now.Readable := Instant.readable_of_isFinite (by decide)
  have hspec := take_spec followed lively (.reachable reachable_newStory)
    (.connect .empty (fun _ => true) _ 7 rfl) hnow
  obtain ⟨time, htime⟩ := hnow
  have hran (command : Command) : (followed.ran lively (.command ⟨1⟩ command)).1 =
      (command.plan none time (Stored.session newStory ⟨1⟩) (Stored.slot newStory ⟨1⟩)).outcome :=
    congrArg Prod.fst (command.run_perform reachable_newStory.kept
      (reachable_newStory.not_held ⟨1⟩) registered_newStory htime none)
  refine ⟨(hspec askedView).2.2.1 rfl, ?_, ?_⟩
  · have htake : followed.take lively startRemoval =
        followed.answer lively (.command ⟨1⟩ (.removeNode startNodeId)) := by
      rw [take, request_startRemoval]
    have hafter : followed.afterRefusal startRemoval = newStory := by
      rw [afterRefusal, request_startRemoval]
      rfl
    have herror : (followed.ran lively (.command ⟨1⟩ (.removeNode startNodeId))).1 =
        .error (.nodeKept startNodeId) := hran _
    have hrefused : (followed.take lively startRemoval).reply.IsRefusal := by
      rw [htake, (answer_of_error herror).1]
      exact ⟨by decide, by decide⟩
    obtain ⟨hsent, hrecords⟩ := (hspec startRemoval).1 hrefused
    exact ⟨hrefused, hsent, hrecords.trans hafter⟩
  · have htake : followed.take lively freshStart =
        followed.answer lively (.command ⟨1⟩ .restart) := by
      rw [take, request_freshStart]
    obtain ⟨reply, hreply⟩ : ∃ reply,
        (Command.restart.plan none time (Stored.session newStory ⟨1⟩)
          (Stored.slot newStory ⟨1⟩)).outcome = .ok reply := ⟨_, rfl⟩
    have hdone : (followed.take lively freshStart).reply.IsSuccess := by
      rw [htake, (answer_of_ok ((hran .restart).trans hreply)).1]
      exact Command.isSuccess_of_plan hreply
    obtain ⟨id, hid, hsent, hfree⟩ := (hspec freshStart).2.2.2 hdone (by decide) _ _ at_freshStart
    obtain rfl : id = ⟨1⟩ := Option.some.inj (hid.symm.trans (by decide +kernel))
    exact ⟨hdone, hsent 7, hfree⟩

end Service

end Narrative
