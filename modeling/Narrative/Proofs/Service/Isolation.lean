import Narrative.Proofs.Service.Guarded
import Narrative.Proofs.Service.Messages
import Narrative.Proofs.Service.Transfer

/-!
# Stories on their own

What a message about a story is replied, and what it does to the story, depends only on what is kept
of the story, on its lock, and on whether the catalog lists it.  Messages about other stories and
new stories change none of that, so a story takes the course that it would take if it were alone.
-/

namespace Narrative

open Schema

variable {records other : Records} {id b : Identifier} {now : Instant} {time : ℤ}

/-- The story that a request is about. -/
def Request.story? : Request → Option Identifier
  | query story _ => some story
  | command story _ => some story
  | _ => none

/-- The story that a resource belongs to. -/
def Resource.story? : Resource → Option Identifier
  | story sid _ => Identifier.ofText? sid
  | _ => none

/-- The story that a message is addressed to. -/
def Message.story? (message : Message) : Option Identifier :=
  (Resource.at? message.address).bind Resource.story?

namespace Endpoint

theorem Reads.imp {p q : Request → Prop} {endpoint : Endpoint} (h : endpoint.Reads p)
    (hpq : ∀ request, p request → q request) : endpoint.Reads q := by
  cases endpoint with
  | plain request => exact fun value hvalue => hpq value (h value hvalue)
  | withBody request => exact fun body value hvalue => hpq value (h body value hvalue)

theorem reads_story_of_asking {story : String} {query : Query} {endpoint : Endpoint}
    (h : asking story query = some endpoint) :
    endpoint.Reads fun request => request.story? = Identifier.ofText? story := by
  obtain rfl := Option.some.inj h
  intro value hvalue
  obtain ⟨id, hid, rfl⟩ := Checked.value?_map_eq_some.1 hvalue
  exact (ofText?_of_storyParameter hid).symm

/-- The request that is read at an endpoint is about the story of the resource. -/
theorem reads_story {method : Method} {resource : Resource} {endpoint : Endpoint}
    (h : of? method resource = some endpoint) :
    endpoint.Reads fun request => request.story? = resource.story? := by
  have hplain {request : Request} {resource : Resource} (hstory : request.story? = resource.story?)
      (h : some (Endpoint.plain (pure request)) = some endpoint) :
      endpoint.Reads fun request => request.story? = resource.story? := by
    obtain rfl := Option.some.inj h
    intro value hvalue
    rwa [← Option.some.inj hvalue]
  cases resource with
  | health | about | documentation =>
    simp only [of?] at h
    split at h
    · exact hplain rfl h
    · cases h
  | stories => cases method <;> first | exact hplain rfl h | cases h
  | story sid part =>
    by_cases hmethod : method = .get
    · subst hmethod
      cases part <;> first | exact reads_story_of_asking h | exact absurd h (by simp [of?, ofPart?])
    · refine (reads_of_ne_get hmethod h).imp ?_
      rintro _ ⟨id, wanted, hid, rfl⟩
      exact hid.symm

end Endpoint

theorem Message.story?_of_request {message : Message} {draft : Draft Request}
    (h : message.request = .ok draft) : draft.value.story? = message.story? := by
  obtain ⟨resource, endpoint, hresource, hendpoint, hread⟩ := endpoint_of_request h
  rw [(Endpoint.reads_story hendpoint).of_readAt hread, story?, hresource]
  rfl

/-- The stores agree in everything that concerns a story. -/
structure Stored.Alike (id : Identifier) (records other : Records) : Prop where
  owned : ∀ key, id.Owns key → records.get? key = other.get? key
  lock : records.get? (StoreKey.lock id).text = other.get? (StoreKey.lock id).text
  listed : Stored.Registered records id ↔ Stored.Registered other id

namespace Stored

theorem registered_congr (h : records.get? StoreKey.catalog.text = other.get? StoreKey.catalog.text)
    (id : Identifier) : Registered records id ↔ Registered other id := by
  rw [Registered, Registered, labels, labels, h]

namespace Alike

theorem refl (id : Identifier) (records : Records) : Alike id records records :=
  ⟨fun _ _ => rfl, rfl, Iff.rfl⟩

theorem trans {final : Records} (h : Alike id records other) (hfinal : Alike id other final) :
    Alike id records final :=
  ⟨fun key hkey => (h.owned key hkey).trans (hfinal.owned key hkey), h.lock.trans hfinal.lock,
    h.listed.trans hfinal.listed⟩

/-- Stores that differ in the keys of another story only agree in what concerns a story. -/
theorem of_frame (hne : id ≠ b)
    (h : ∀ key, ¬id.Owns key → records.get? key = other.get? key) : Alike b records other where
  owned := fun key hkey => h key fun hid => hne (hid.eq hkey)
  lock := h _ (Identifier.not_owns_lock id b)
  listed := registered_congr (h _ (Identifier.not_owns_catalog id)) b

/-- Changes to the keys of a story keep stores alike if they make these keys the same. -/
theorem change {after afterOther : Records} (h : Alike id records other)
    (howned : ∀ key, id.Owns key → after.get? key = afterOther.get? key)
    (hframe : ∀ key, ¬id.Owns key → after.get? key = records.get? key)
    (hframeOther : ∀ key, ¬id.Owns key → afterOther.get? key = other.get? key) :
    Alike id after afterOther where
  owned := howned
  lock := by
    have hlock := Identifier.not_owns_lock id id
    rw [hframe _ hlock, hframeOther _ hlock, h.lock]
  listed := by
    have hcatalog := Identifier.not_owns_catalog id
    rw [registered_congr (hframe _ hcatalog), registered_congr (hframeOther _ hcatalog), h.listed]

theorem session (h : Alike id records other) : session records id = session other id :=
  session_congr fun part => h.owned _ ⟨part, rfl⟩

theorem insert_lock (h : Alike id records other) (value : String) :
    Alike id (records.insert (StoreKey.lock id).text value)
      (other.insert (StoreKey.lock id).text value) where
  owned := by
    intro key hkey
    rw [Table.get?_insert, Table.get?_insert, h.owned key hkey]
  lock := by rw [Table.get?_insert, Table.get?_insert, if_pos rfl, if_pos rfl]
  listed := by rw [registered_insert_lock, registered_insert_lock, h.listed]

/-- A new story changes nothing that concerns another one. -/
theorem created (h : Kept records) (hne : id ≠ b) : Alike b (created id records) records where
  owned := by
    rintro _ ⟨part, rfl⟩
    rw [get?_created_of_ne _ _ (by simp), Plan.get?_store_story _ _ hne]
  lock := by rw [get?_created_of_ne _ _ (by simp), Plan.get?_store_lock]
  listed := by rw [registered_created h, or_iff_left hne.symm]

end Alike

end Stored

open Stored (Alike)

/-! ## Requests on a story -/

section Bodies

variable {α : Type} {body : Session → Attempt α}

/-- What is done in an opened story depends only on what concerns the story. -/
theorem Session.run_opening_congr (h : Kept records) (hother : Kept other)
    (halike : Alike id records other)
    (hbody : ∀ session, session.Of id →
      (body session).Confined id.Owns id.Owns fun _ => True) :
    ((openStory id.spelling true >>= body).run records).1 =
        ((openStory id.spelling true >>= body).run other).1 ∧
      ∀ key, id.Owns key → ((openStory id.spelling true >>= body).run records).2.get? key =
        ((openStory id.spelling true >>= body).run other).2.get? key := by
  rw [Attempt.run_bind, Attempt.run_bind, run_openStory h, run_openStory hother]
  by_cases hlisted : Stored.Registered records id
  · rw [if_pos hlisted, if_pos (halike.listed.1 hlisted), halike.session]
    obtain ⟨hresult, hkeys⟩ :=
      (hbody (Stored.session other id) (Stored.story_session other id)).run_congr halike.owned
    exact ⟨hresult, fun key hkey => hkeys key (halike.owned key hkey)⟩
  · rw [if_neg hlisted, if_neg fun hin => hlisted (halike.listed.2 hin)]
    exact ⟨rfl, halike.owned⟩

theorem Command.run_editing_congr (h : Kept records) (hother : Kept other)
    (halike : Alike id records other)
    (hbody : ∀ session, session.Of id →
      (body session).Confined id.Owns id.Owns fun _ => True) :
    ((editing id.spelling body).run records).1 = ((editing id.spelling body).run other).1 ∧
      ∀ key, id.Owns key → ((editing id.spelling body).run records).2.get? key =
        ((editing id.spelling body).run other).2.get? key := by
  by_cases hheld : Held records id
  · have hheldOther : Held other id := by
      rwa [Held, Table.contains, ← halike.lock]
    rw [run_editing_of_held hheld, run_editing_of_held hheldOther]
    exact ⟨rfl, halike.owned⟩
  · have hfree : ¬Held other id := by
      rwa [Held, Table.contains, ← halike.lock]
    obtain ⟨hresult, hkeys⟩ := Session.run_opening_congr (h.insert_lock id "1")
      (hother.insert_lock id "1") (halike.insert_lock "1") hbody
    rw [run_editing_of_free hheld, run_editing_of_free hfree]
    refine ⟨hresult, fun key hkey => ?_⟩
    have hne := Ne.symm (hkey.ne_lock id)
    rw [Table.get?_erase, Table.get?_erase, if_neg hne, if_neg hne]
    exact hkeys key hkey

end Bodies

namespace Request

variable {request : Request}

/-- A request on a story leaves all other keys as they are. -/
theorem get?_run (hstory : request.story? = some id) {key : String} (hkey : ¬id.Owns key)
    (assets : Option Assets) (fresh : Identifier) (now : Instant) (records : Records) :
    ((request.perform assets fresh now).run records).2.get? key = records.get? key := by
  cases request with
  | health | about | documentation | createStory | listStories => nomatch hstory
  | query story asked => rw [Request.onlyReads_perform rfl rfl]
  | command story wanted =>
    obtain rfl := Option.some.inj hstory
    exact (wanted.asks_perform assets now story).get?_run hkey records

/-- Identifiers for new stories do not matter to a request on a story. -/
theorem perform_eq_of_story (hstory : request.story? = some id) (assets : Option Assets)
    (fresh other : Identifier) (now : Instant) :
    request.perform assets fresh now = request.perform assets other now := by
  cases request with
  | health | about | documentation | createStory | listStories => nomatch hstory
  | query | command => rfl

/-- What a request on a story is answered, and what it does to the story, depends only on what
concerns the story. -/
theorem run_congr (h : Kept records) (hother : Kept other) (halike : Alike id records other)
    (hstory : request.story? = some id) (assets : Option Assets) (fresh freshOther : Identifier)
    (now : Instant) :
    ((request.perform assets fresh now).run records).1 =
        ((request.perform assets freshOther now).run other).1 ∧
      Alike id ((request.perform assets fresh now).run records).2
        ((request.perform assets freshOther now).run other).2 := by
  have hrun : ((request.perform assets fresh now).run records).1 =
        ((request.perform assets fresh now).run other).1 ∧
      ∀ key, id.Owns key → ((request.perform assets fresh now).run records).2.get? key =
        ((request.perform assets fresh now).run other).2.get? key := by
    cases request with
    | health | about | documentation | createStory | listStories => nomatch hstory
    | query story asked =>
      obtain rfl := Option.some.inj hstory
      exact Session.run_opening_congr h hother halike fun session hsession =>
        asked.confined_answer hsession now
    | command story wanted =>
      obtain rfl := Option.some.inj hstory
      have hchanges := wanted.changes_perform assets now story
      rw [perform]
      generalize wanted.perform assets now story.spelling = attempt at hchanges
      cases hchanges with
      | refused failure => exact ⟨rfl, halike.owned⟩
      | editing change reply hchange =>
        obtain ⟨hresult, hkeys⟩ := Command.run_editing_congr h hother halike
          fun session hsession => (hchange session hsession).confined
        rw [Attempt.run_map, Attempt.run_map, hresult]
        exact ⟨rfl, hkeys⟩
  rw [perform_eq_of_story hstory assets freshOther fresh]
  exact ⟨hrun.1, halike.change hrun.2
    (fun key hkey => get?_run hstory hkey assets fresh now records)
    (fun key hkey => get?_run hstory hkey assets fresh now other)⟩

/-- A request that is not about a story, and does not create it, changes nothing that concerns
it. -/
theorem alike_run (h : Kept records) (hstory : request.story? ≠ some b) {fresh : Identifier}
    (hfresh : request = createStory → fresh ≠ b) (assets : Option Assets) (now : Instant) :
    Alike b ((request.perform assets fresh now).run records).2 records := by
  cases hrequest : request.story? with
  | some story =>
    refine .of_frame (fun heq => hstory (hrequest.trans (congrArg some heq))) fun key hkey => ?_
    exact get?_run hrequest hkey assets fresh now records
  | none =>
    cases request with
    | health | about | documentation | listStories =>
      rw [Request.onlyReads_perform rfl rfl]
      exact .refl b records
    | query | command => nomatch hrequest
    | createStory =>
      rw [run_createStory h]
      exact .created h (hfresh rfl)

end Request

/-! ## Messages -/

namespace Service

variable {σ : Type} {service alone : Service σ} {surroundings : Surroundings σ}
  {message : Message}

theorem take_of_request {request : Request} (h : message.request = .ok ⟨request, none⟩) :
    service.take surroundings message = service.answer surroundings request := by
  rw [take, h]

/-- Answering a request changes the records as the request does; the assets stay, and no identifier
is taken back. -/
theorem service_answer (request : Request) :
    (service.answer surroundings request).service.records =
        (service.ran surroundings request).2 ∧
      (service.answer surroundings request).service.assets = service.assets ∧
      service.issued ≤ (service.answer surroundings request).service.issued := by
  have hperform : (service.perform surroundings request).2.records =
        (service.ran surroundings request).2 ∧
      (service.perform surroundings request).2.assets = service.assets ∧
      service.issued ≤ (service.perform surroundings request).2.issued := by
    refine ⟨rfl, rfl, ?_⟩
    simp only [perform]
    split <;> omega
  unfold answer
  generalize service.perform surroundings request = result at hperform ⊢
  obtain ⟨outcome, after⟩ := result
  cases outcome with
  | error failure => exact hperform
  | ok reply => cases request.changed? <;> exact hperform

/-- The reply to a message depends on the store only through the outcome of its request. -/
theorem reply_take_congr (h : ∀ draft, message.request = .ok draft →
    (service.ran surroundings draft.value).1 = (alone.ran surroundings draft.value).1) :
    (service.take surroundings message).reply = (alone.take surroundings message).reply := by
  unfold take
  split
  case h_1 request hrequest =>
    have houtcome := h _ hrequest
    cases hservice : (service.ran surroundings request).1 with
    | error failure =>
      rw [(answer_of_error hservice).1, (answer_of_error (houtcome.symm.trans hservice)).1]
    | ok reply => rw [(answer_of_ok hservice).1, (answer_of_ok (houtcome.symm.trans hservice)).1]
  case h_2 request points hrequest =>
    have houtcome : (service.perform surroundings request).1 =
        (alone.perform surroundings request).1 := h _ hrequest
    rw [refuse, refuse, houtcome]
    split <;> rfl
  case h_3 => rfl

theorem assets_take (service : Service σ) (surroundings : Surroundings σ) (message : Message) :
    (service.take surroundings message).service.assets = service.assets := by
  by_cases hrequest : ∃ request, message.request = .ok ⟨request, none⟩
  · obtain ⟨request, hrequest⟩ := hrequest
    rw [take_of_request hrequest]
    exact (service_answer request).2.1
  · rw [(take_of_not_request service surroundings fun request h => hrequest ⟨request, h⟩).2.2.1]

theorem issued_le_take (service : Service σ) (surroundings : Surroundings σ) (message : Message) :
    service.issued ≤ (service.take surroundings message).service.issued := by
  by_cases hrequest : ∃ request, message.request = .ok ⟨request, none⟩
  · obtain ⟨request, hrequest⟩ := hrequest
    rw [take_of_request hrequest]
    exact (service_answer request).2.2
  · rw [(take_of_not_request service surroundings fun request h => hrequest ⟨request, h⟩).2.2.1]

/-- Messages keep a kept store kept. -/
theorem kept_take (h : Kept service.records) (hnow : surroundings.now.Readable)
    (message : Message) :
    Kept (service.take surroundings message).service.records := by
  by_cases hrequest : ∃ request, message.request = .ok ⟨request, none⟩
  · obtain ⟨request, hrequest⟩ := hrequest
    obtain ⟨time, htime⟩ := hnow
    rw [take_of_request hrequest, (service_answer request).1]
    exact (Request.step h htime _ _ request).kept h (shortTime_of_millis htime)
  · rwa [(take_of_not_request service surroundings fun request h => hrequest ⟨request, h⟩).2.2.1]

/-- A message to another story or to none changes nothing that concerns a story, unless it creates
it. -/
theorem alike_take (h : Kept service.records) (hstory : message.story? ≠ some b)
    (hfresh : surroundings.supply service.issued ≠ b) :
    Alike b (service.take surroundings message).service.records service.records := by
  by_cases hrequest : ∃ request, message.request = .ok ⟨request, none⟩
  · obtain ⟨request, hrequest⟩ := hrequest
    rw [take_of_request hrequest, (service_answer request).1]
    rw [← Message.story?_of_request hrequest] at hstory
    exact Request.alike_run h hstory (fun _ => hfresh) _ _
  · rw [(take_of_not_request service surroundings fun request h => hrequest ⟨request, h⟩).2.2.1]
    exact .refl b service.records

/-- A message to a story is replied the same, and does the same to the story, wherever the story is
the same. -/
theorem take_congr (h : Kept service.records) (halone : Kept alone.records)
    (halike : Alike b service.records alone.records) (hassets : service.assets = alone.assets)
    (hstory : message.story? = some b) :
    (service.take surroundings message).reply = (alone.take surroundings message).reply ∧
      Alike b (service.take surroundings message).service.records
        (alone.take surroundings message).service.records := by
  have hran {draft : Draft Request} (hrequest : message.request = .ok draft) :
      (service.ran surroundings draft.value).1 = (alone.ran surroundings draft.value).1 ∧
        Alike b (service.ran surroundings draft.value).2
          (alone.ran surroundings draft.value).2 := by
    rw [ran, ran, hassets]
    exact Request.run_congr h halone halike ((Message.story?_of_request hrequest).trans hstory) ..
  refine ⟨reply_take_congr fun draft hrequest => (hran hrequest).1, ?_⟩
  by_cases hrequest : ∃ request, message.request = .ok ⟨request, none⟩
  · obtain ⟨request, hrequest⟩ := hrequest
    rw [take_of_request hrequest, take_of_request hrequest, (service_answer request).1,
      (service_answer request).1]
    exact (hran hrequest).2
  · have hnot (request : Request) (h : message.request = .ok ⟨request, none⟩) : False :=
      hrequest ⟨request, h⟩
    rw [(take_of_not_request service surroundings hnot).2.2.1,
      (take_of_not_request alone surroundings hnot).2.2.1]
    exact halike

/-- Take messages one after the other, each with what surrounds the service while it answers.  What
comes of them are the messages with their replies, and the service afterwards. -/
def serve (service : Service σ) :
    List (Surroundings σ × Message) → List (Message × Reply) × Service σ
  | [] => ([], service)
  | (surroundings, message) :: rest =>
    let exchange := service.take surroundings message
    let later := exchange.service.serve rest
    ((message, exchange.reply) :: later.1, later.2)

/-- The replies to the messages to a story, and what becomes of the story, are those of a service
that takes these messages only. -/
theorem serve_congr (h : Kept service.records) (halone : Kept alone.records)
    (halike : Alike b service.records alone.records) (hassets : service.assets = alone.assets)
    (arrivals : List (Surroundings σ × Message))
    (hnow : ∀ arrival ∈ arrivals, arrival.1.now.Readable)
    (hfresh : ∀ arrival ∈ arrivals, ∀ n, service.issued ≤ n → arrival.1.supply n ≠ b) :
    (service.serve arrivals).1.filter (fun entry => entry.1.story? = some b) =
        (alone.serve (arrivals.filter fun arrival => arrival.2.story? = some b)).1 ∧
      Alike b (service.serve arrivals).2.records
        (alone.serve (arrivals.filter fun arrival => arrival.2.story? = some b)).2.records := by
  induction arrivals generalizing service alone with
  | nil => exact ⟨rfl, halike⟩
  | cons arrival rest ih =>
    obtain ⟨surroundings, message⟩ := arrival
    obtain ⟨hnow, hnowRest⟩ := List.forall_mem_cons.1 hnow
    obtain ⟨hfresh, hfreshRest⟩ := List.forall_mem_cons.1 hfresh
    dsimp only at hnow hfresh
    have hkept := kept_take h hnow message
    have hlater : ∀ arrival ∈ rest, ∀ n,
        (service.take surroundings message).service.issued ≤ n → arrival.1.supply n ≠ b :=
      fun arrival hmem n hn => hfreshRest arrival hmem n ((issued_le_take _ _ _).trans hn)
    by_cases hstory : message.story? = some b
    · obtain ⟨hreply, halike⟩ := take_congr h halone halike hassets hstory
      obtain ⟨hreplies, hfinal⟩ := ih hkept (kept_take halone hnow message) halike
        (by rw [assets_take service, assets_take alone, hassets]) hnowRest hlater
      rw [List.filter_cons_of_pos (by simpa using hstory), serve, serve, hreply,
        List.filter_cons_of_pos (by simpa using hstory), hreplies]
      exact ⟨rfl, hfinal⟩
    · have hstay := (alike_take h hstory (hfresh _ le_rfl)).trans halike
      obtain ⟨hreplies, hfinal⟩ := ih hkept halone hstay
        ((assets_take service surroundings message).trans hassets) hnowRest hlater
      rw [List.filter_cons_of_neg (by simpa using hstory), serve,
        List.filter_cons_of_neg (by simpa using hstory), hreplies]
      exact ⟨rfl, hfinal⟩

end Service

/-- Stories are isolated.  Whatever else a service takes in between, be it about other stories or
for new ones, the replies to the messages to a story, and what becomes of the story, are those of a
service in which nothing but what concerns the story is the same and which takes nothing but these
messages.  If there are none, nothing that concerns the story changes. -/
theorem stories_isolated {σ : Type} {service alone : Service σ} (b : Identifier)
    (hservice : Contended service.records) (halone : Contended alone.records)
    (halike : Alike b service.records alone.records) (hassets : service.assets = alone.assets)
    (arrivals : List (Surroundings σ × Message))
    (hnow : ∀ arrival ∈ arrivals, arrival.1.now.Readable)
    (hfresh : ∀ arrival ∈ arrivals, ∀ n, service.issued ≤ n → arrival.1.supply n ≠ b) :
    let own := arrivals.filter fun arrival => arrival.2.story? = some b
    (service.serve arrivals).1.filter (fun entry => entry.1.story? = some b) =
        (alone.serve own).1 ∧
      Alike b (service.serve arrivals).2.records (alone.serve own).2.records ∧
      (own = [] → Alike b (service.serve arrivals).2.records service.records) := by
  intro own
  obtain ⟨hreplies, hfinal⟩ :=
    Service.serve_congr hservice.kept halone.kept halike hassets arrivals hnow hfresh
  refine ⟨hreplies, hfinal, fun hown => ?_⟩
  have hstay := (Service.serve_congr hservice.kept hservice.kept (.refl b service.records) rfl
    arrivals hnow hfresh).2
  change Alike b _ (service.serve own).2.records at hstay
  rwa [hown] at hstay

/-- A message to the second of two stories, one for a third story, and one to the first story. -/
def threeMessages : List (Surroundings ℕ × Message) :=
  [⟨.post, "/stories/00000000-0000-0000-0000-000000000002/play/saves/a:b", none⟩,
    ⟨.post, "/stories", none⟩,
    ⟨.get, "/stories/00000000-0000-0000-0000-000000000001/play", none⟩].map
      fun message => (⟨⟨0.0⟩, fun _ => ⟨3⟩, fun _ => true⟩, message)

/-- The first of two stories does as if it were alone. -/
theorem stories_isolated_twoStories :
    (Service.serve ⟨twoStories, {}, none, 2⟩ threeMessages).1.filter
        (fun entry => entry.1.story? = some ⟨1⟩) =
      (Service.serve ⟨newStory, {}, none, 1⟩ (threeMessages.drop 2)).1 ∧
    Alike ⟨1⟩ (Service.serve ⟨twoStories, {}, none, 2⟩ (threeMessages.take 2)).2.records
      twoStories := by
  have hsecond : Message.story?
      ⟨.post, "/stories/00000000-0000-0000-0000-000000000002/play/saves/a:b", none⟩ ≠ some ⟨1⟩ := by
    decide +kernel
  have hcreation : Message.story? ⟨.post, "/stories", none⟩ ≠ some ⟨1⟩ := by decide +kernel
  have hfirst : Message.story?
      ⟨.get, "/stories/00000000-0000-0000-0000-000000000001/play", none⟩ = some ⟨1⟩ := by
    decide +kernel
  have halike : Alike ⟨1⟩ twoStories newStory := .created reachable_newStory.kept (by decide)
  have hnow : ∀ arrival ∈ threeMessages, arrival.1.now.Readable := by
    simp only [threeMessages, List.forall_mem_map]
    exact fun _ _ => ⟨0, Instant.millis_zero⟩
  have hfresh : ∀ arrival ∈ threeMessages, ∀ n, 2 ≤ n → arrival.1.supply n ≠ ⟨1⟩ := by
    simp only [threeMessages, List.forall_mem_map]
    exact fun _ _ _ _ => by decide
  have hcontended : Contended twoStories := .reachable (reachable_newStory.create ⟨2⟩)
  have hall := @stories_isolated ℕ ⟨twoStories, {}, none, 2⟩ ⟨newStory, {}, none, 1⟩ ⟨1⟩
    hcontended (.reachable reachable_newStory) halike rfl threeMessages hnow hfresh
  have hothers := @stories_isolated ℕ ⟨twoStories, {}, none, 2⟩ ⟨newStory, {}, none, 1⟩ ⟨1⟩
    hcontended (.reachable reachable_newStory) halike rfl (threeMessages.take 2)
    (fun _ hmem => hnow _ (List.mem_of_mem_take hmem))
    (fun _ hmem => hfresh _ (List.mem_of_mem_take hmem))
  have hown : threeMessages.filter (fun arrival => arrival.2.story? = some ⟨1⟩) =
      threeMessages.drop 2 := by
    simp only [threeMessages, List.map_cons, List.map_nil, List.filter_cons, List.filter_nil,
      hsecond, hcreation, hfirst, decide_true, decide_false, Bool.false_eq_true, if_true, if_false,
      List.drop_succ_cons, List.drop_zero]
  have hnone : (threeMessages.take 2).filter (fun arrival => arrival.2.story? = some ⟨1⟩) = [] := by
    simp only [threeMessages, List.map_cons, List.take_succ_cons, List.take_zero, List.filter_cons,
      List.filter_nil, hsecond, hcreation, decide_false, Bool.false_eq_true, if_false]
  rw [← hown]
  exact ⟨hall.1, hothers.2.2 hnone⟩

end Narrative
