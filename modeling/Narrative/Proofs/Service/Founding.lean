import Narrative.Proofs.Service.Interleaving
import Narrative.Proofs.Session.Bundles
import Narrative.Proofs.Storage.Ledger

/-!
# Stories created at the same time

Creating a story stores its parts, reads the catalog, and writes it back with one more story.  No
lock is held for that.  If another client writes the catalog in between, the story of that client is
lost: it is stored, but the catalog does not list it and it cannot be opened.  As long as nobody
overtakes anybody in this way, all stories are in the catalog, whatever else gets mixed up.
-/

namespace Narrative

open Script (done read write)

variable {ι : Type} {ids : ι → Identifier} {known : List Identifier} {records : Records} {i : ι}

namespace Catalog

/-- Put a story at the end of the catalog. -/
def enlist (id : Identifier) : Attempt Identifier := do
  let stories ← load
  Script.put Repository.catalogKey (Json.listText (stories ++ [.text id.spelling]))
  return id

/-- What is left of the creation of a story after some of its commands.  The third one has found
some stories in the catalog. -/
def rest (id : Identifier) (found : List Identifier) : ℕ → Script (Except Failure Identifier)
  | 0 => ExceptT.run (create id)
  | 1 => write (StoreKey.story id .graph).text Graph.default.toJson.text (ExceptT.run (enlist id))
  | 2 => ExceptT.run (enlist id)
  | 3 => write StoreKey.catalog.text
      (Json.listText (((found ++ [id]).map Identifier.spelling).map .text)) (done (.ok id))
  | _ => done (.ok id)

theorem rest_zero (id : Identifier) (found more : List Identifier) : rest id found 0 =
    write (StoreKey.story id .definitions).text Definitions.default.toJson.text (rest id more 1) :=
  rfl

/-- The third command reads the catalog, and the fourth one depends on what it has found. -/
theorem rest_two (id : Identifier) (found : List Identifier) :
    ∃ next, rest id found 2 = read StoreKey.catalog.text next ∧
      ∀ records ids, NamesAt records .catalog (ids.map Identifier.spelling) →
        next (records.get? StoreKey.catalog.text) = rest id ids 3 := by
  refine ⟨_, rfl, fun records ids h => ?_⟩
  rw [rest, List.map_append, List.map_append]
  rcases h with ⟨hnone, hnil⟩ | hsome
  · rw [hnone, hnil]
    rfl
  · rw [hsome]
    change ExceptT.run (Attempt.ofExcept (Repository.parsedNames _) >>= fun stories => _) = _
    rw [Repository.parsedNames_listText]
    rfl

/-- What has been found matters only while the catalog is about to be written. -/
theorem rest_congr (id : Identifier) (found more : List Identifier) {steps : ℕ} (h : steps ≠ 3) :
    rest id found steps = rest id more steps := by
  match steps with
  | 0 | 1 | 2 => rfl
  | 3 => exact absurd rfl h
  | steps + 4 => rfl

theorem rest_of_four_le {id : Identifier} {found : List Identifier} {steps : ℕ} (h : 4 ≤ steps) :
    rest id found steps = done (.ok id) := by
  obtain ⟨steps, rfl⟩ := Nat.exists_eq_add_of_le' h
  rfl

theorem four_le_of_rest {id : Identifier} {found : List Identifier} {steps : ℕ}
    {result : Except Failure Identifier} (h : rest id found steps = done result) : 4 ≤ steps := by
  match steps with
  | 0 | 1 | 2 | 3 => exact nomatch h
  | steps + 4 => omega

end Catalog

/-! ## Clients that create stories -/

/-- Clients that create stories, before they begin. -/
def founders (ids : ι → Identifier) (records : Records) : Crowd ι (Except Failure Identifier) :=
  .start (fun i => ExceptT.run (Catalog.create (ids i))) records

/-- Clients that create stories are as far as a ledger says.  The catalog has the stories that it
had before, and those of the clients in the ledger. -/
structure Follows (ids : ι → Identifier) (known : List Identifier) (ledger : Ledger ι)
    (crowd : Crowd ι (Except Failure Identifier)) : Prop where
  kept : Kept crowd.records
  catalog : NamesAt crowd.records .catalog
    ((known ++ ledger.entered.map ids).map Identifier.spelling)
  scripts : ∀ i, crowd.scripts i =
    Catalog.rest (ids i) (known ++ (ledger.found i).map ids) (ledger.steps i)
  definitions : ∀ i, 1 ≤ ledger.steps i →
    crowd.records.get? (StoreKey.story (ids i) .definitions).text =
      some Definitions.default.toJson.text
  graph : ∀ i, 2 ≤ ledger.steps i →
    crowd.records.get? (StoreKey.story (ids i) .graph).text = some Graph.default.toJson.text

theorem follows_start (hkept : Kept records)
    (hknown : NamesAt records .catalog (known.map Identifier.spelling)) :
    Follows ids known .start (founders ids records) where
  kept := hkept
  catalog := by
    rw [Ledger.start, List.map_nil, List.append_nil]
    exact hknown
  scripts _ := rfl
  definitions _ h := absurd h (by simp [Ledger.start])
  graph _ h := absurd h (by simp [Ledger.start])

namespace Follows

variable [DecidableEq ι] {ledger : Ledger ι} {crowd : Crowd ι (Except Failure Identifier)}

/-- The scripts after a command fit the ledger if the script of the client does. -/
theorem scripts_next (h : Follows ids known ledger crowd)
    {script : Script (Except Failure Identifier)} (hscript : script =
      Catalog.rest (ids i) (known ++ ((ledger.next i).found i).map ids) (ledger.steps i + 1))
    (j : ι) : Function.update crowd.scripts i script j =
      Catalog.rest (ids j) (known ++ ((ledger.next i).found j).map ids)
        ((ledger.next i).steps j) := by
  by_cases hj : j = i
  · subst hj
    rw [Function.update_self, Ledger.steps_next_self, hscript]
  · rw [Function.update_of_ne hj, Ledger.steps_next_of_ne hj, Ledger.found_next_of_ne hj, h.scripts]

/-- What a client stores is there for all clients that have stored it. -/
theorem get?_insert_part {part : StoryKey} {text : String} {steps : ℕ}
    (h : ∀ j, steps ≤ ledger.steps j →
      records.get? (StoreKey.story (ids j) part).text = some text)
    {j : ι} (hj : steps ≤ (ledger.next i).steps j) :
    (records.insert (StoreKey.story (ids i) part).text text).get?
      (StoreKey.story (ids j) part).text = some text := by
  rw [get?_insert_text]
  split
  case isTrue => rfl
  case isFalse hne =>
    have hji : j ≠ i := fun heq => hne (by rw [heq])
    rw [Ledger.steps_next_of_ne hji] at hj
    exact h j hj

/-- The first two commands store what a new story has. -/
theorem next_of_store (h : Follows ids known ledger crowd) {part : StoryKey} {text : String}
    (hi : ledger.steps i < 2)
    (hscript : crowd.scripts i = write (StoreKey.story (ids i) part).text text
      (Catalog.rest (ids i) [] (ledger.steps i + 1)))
    (hkept : Kept (crowd.records.insert (StoreKey.story (ids i) part).text text))
    (hdefinitions : ∀ j, 1 ≤ (ledger.next i).steps j →
      (crowd.records.insert (StoreKey.story (ids i) part).text text).get?
        (StoreKey.story (ids j) .definitions).text = some Definitions.default.toJson.text)
    (hgraph : ∀ j, 2 ≤ (ledger.next i).steps j →
      (crowd.records.insert (StoreKey.story (ids i) part).text text).get?
        (StoreKey.story (ids j) .graph).text = some Graph.default.toJson.text) :
    Follows ids known (ledger.next i) (crowd.next i) := by
  rw [Crowd.next_of_write hscript]
  refine ⟨hkept, ?_, h.scripts_next (Catalog.rest_congr _ _ _ (by omega)), hdefinitions, hgraph⟩
  rw [Ledger.entered_next_of_not_pending (by unfold Ledger.Pending; omega)]
  refine h.catalog.congr ?_
  rw [get?_insert_text, if_neg (by simp)]

theorem next_zero (h : Follows ids known ledger crowd) (hi : ledger.steps i = 0) :
    Follows ids known (ledger.next i) (crowd.next i) := by
  have hscript := (h.scripts i).trans (congrArg _ hi)
  have hkept : Kept (({ definitions := some .default, outcome := .ok () } : Plan Unit).store
      (ids i) crowd.records) :=
    Plan.kept_store (fun _ hentry => absurd hentry List.not_mem_nil) h.kept
  refine h.next_of_store (by omega) (hscript.trans ?_) hkept
    (fun j => get?_insert_part h.definitions) fun j hj => ?_
  · rw [hi]
    exact Catalog.rest_zero ..
  · rw [get?_insert_text, if_neg (by simp)]
    have hji : j ≠ i := by
      rintro rfl
      rw [Ledger.steps_next_self, hi] at hj
      omega
    rw [Ledger.steps_next_of_ne hji] at hj
    exact h.graph j hj

theorem next_one (h : Follows ids known ledger crowd) (hi : ledger.steps i = 1) :
    Follows ids known (ledger.next i) (crowd.next i) := by
  have hscript := (h.scripts i).trans (congrArg _ hi)
  have hkept : Kept (({ graph := some .default, outcome := .ok () } : Plan Unit).store
      (ids i) crowd.records) :=
    Plan.kept_store (fun _ hentry => absurd hentry List.not_mem_nil) h.kept
  refine h.next_of_store (by omega) (hscript.trans ?_) hkept (fun j hj => ?_)
    fun j => get?_insert_part h.graph
  · rw [hi]
    rfl
  · rw [get?_insert_text, if_neg (by simp)]
    exact h.definitions j (Ledger.le_steps_of_le_next hj hi.ge)

/-- The third command finds the stories that are in the catalog. -/
theorem next_two (h : Follows ids known ledger crowd) (hi : ledger.steps i = 2) :
    Follows ids known (ledger.next i) (crowd.next i) := by
  obtain ⟨next, hread, hnext⟩ := Catalog.rest_two (ids i) (known ++ (ledger.found i).map ids)
  have hscript := ((h.scripts i).trans (congrArg _ hi)).trans hread
  rw [Crowd.next_of_read hscript]
  refine ⟨h.kept, ?_, h.scripts_next ?_, ?_, ?_⟩
  · rw [Ledger.entered_next_of_not_pending (by unfold Ledger.Pending; omega)]
    exact h.catalog
  · rw [hnext _ _ h.catalog, Ledger.found_next_self hi, hi]
  · exact fun j hj => h.definitions j (Ledger.le_steps_of_le_next hj (by omega))
  · exact fun j hj => h.graph j (Ledger.le_steps_of_le_next hj (by omega))

/-- The fourth command writes them back, and the new story with them. -/
theorem next_three (h : Follows ids known ledger crowd) (hi : ledger.steps i = 3) :
    Follows ids known (ledger.next i) (crowd.next i) := by
  have hscript := (h.scripts i).trans (congrArg _ hi)
  have hkept := h.kept.insert_catalog (known ++ (ledger.found i).map ids ++ [ids i])
  have hentered : known ++ (ledger.next i).entered.map ids =
      known ++ (ledger.found i).map ids ++ [ids i] := by
    rw [Ledger.entered_next_of_pending hi, List.map_append, List.append_assoc]
    rfl
  rw [Crowd.next_of_write hscript]
  refine ⟨hkept, Or.inr ?_, h.scripts_next ?_, ?_, ?_⟩
  · rw [get?_insert_text, if_pos rfl, hentered]
  · rw [hi]
    rfl
  · intro j hj
    rw [get?_insert_text, if_neg (by simp)]
    exact h.definitions j (Ledger.le_steps_of_le_next hj (by omega))
  · intro j hj
    rw [get?_insert_text, if_neg (by simp)]
    exact h.graph j (Ledger.le_steps_of_le_next hj (by omega))

/-- A client that is through does nothing any more. -/
theorem next_of_four_le (h : Follows ids known ledger crowd) (hi : 4 ≤ ledger.steps i) :
    Follows ids known (ledger.next i) (crowd.next i) := by
  have hscript := (h.scripts i).trans (Catalog.rest_of_four_le hi)
  rw [Crowd.next_of_done hscript]
  refine ⟨h.kept, ?_, fun j => ?_, ?_, ?_⟩
  · rw [Ledger.entered_next_of_not_pending (by unfold Ledger.Pending; omega)]
    exact h.catalog
  · have hscripts := h.scripts_next
      (hscript.trans (Catalog.rest_of_four_le (Nat.le_succ_of_le hi)).symm) j
    rwa [Function.update_eq_self] at hscripts
  · exact fun j hj => h.definitions j (Ledger.le_steps_of_le_next hj (by omega))
  · exact fun j hj => h.graph j (Ledger.le_steps_of_le_next hj (by omega))

theorem next (h : Follows ids known ledger crowd) (i : ι) :
    Follows ids known (ledger.next i) (crowd.next i) := by
  rcases hi : ledger.steps i with _ | _ | _ | _ | steps
  · exact h.next_zero hi
  · exact h.next_one hi
  · exact h.next_two hi
  · exact h.next_three hi
  · exact h.next_of_four_le (by omega)

/-- Every schedule does to the crowd what it does to the ledger. -/
theorem play (hkept : Kept records)
    (hknown : NamesAt records .catalog (known.map Identifier.spelling)) (schedule : List ι) :
    Follows ids known (Ledger.play schedule) ((founders ids records).play schedule) := by
  induction schedule using List.reverseRecOn with
  | nil => exact follows_start hkept hknown
  | append_singleton schedule i ih =>
    rw [Ledger.play_append_singleton, Crowd.play_append]
    exact ih.next i

omit [DecidableEq ι] in
theorem finished_iff (h : Follows ids known ledger crowd) :
    crowd.Finished ↔ ∀ i, 4 ≤ ledger.steps i := by
  refine forall_congr' fun i => ⟨?_, fun hi => ?_⟩
  · rintro ⟨result, hresult⟩
    exact Catalog.four_le_of_rest ((h.scripts i).symm.trans hresult)
  · exact ⟨_, (h.scripts i).trans (Catalog.rest_of_four_le hi)⟩

omit [DecidableEq ι] in
theorem labels (h : Follows ids known ledger crowd) :
    Stored.labels crowd.records .catalog =
      (known ++ ledger.entered.map ids).map fun id => .text id.spelling := by
  rw [h.catalog.labels, List.map_map]
  rfl

/-- A new story is in the catalog as often as its client is in the ledger. -/
theorem count_labels (h : Follows ids known ledger crowd) (hids : Function.Injective ids)
    (hi : ids i ∉ known) :
    (Stored.labels crowd.records .catalog).count (.text (ids i).spelling) =
      ledger.entered.count i := by
  have hspelling : Function.Injective fun id : Identifier => Label.text id.spelling :=
    fun _ _ heq => Identifier.spelling_injective (Label.text.inj heq)
  rw [h.labels, List.count_map_of_injective _ _ hspelling, List.count_append,
    List.count_eq_zero.2 hi, List.count_map_of_injective _ _ hids, Nat.zero_add]

end Follows

/-- The story of a client that is through has the graph and the definitions of a new story. -/
theorem Follows.session_new {ledger : Ledger ι} {crowd : Crowd ι (Except Failure Identifier)}
    (h : Follows ids known ledger crowd) (hi : 4 ≤ ledger.steps i) :
    (Stored.session crowd.records (ids i)).graph = .default ∧
      (Stored.session crowd.records (ids i)).store.definitions = .default := by
  rw [Stored.graph_session, Stored.definitions_session]
  constructor
  · rw [Stored.graph, h.graph i (by omega), Option.bind_some, Repository.parsed_graph]
    exact Graph.kept_default
  · rw [Stored.definitions, h.definitions i (by omega), Option.bind_some,
      Repository.parsed_definitions]
    exact Definitions.kept_of_finite Definitions.finite_default

variable [DecidableEq ι] {schedule : List ι}

/-- When all clients that create stories at the same time are through, each of them has been given
its story.  The catalog has all stories that it had before and no new one twice; what it lists can
be opened, and a new story opens as such, but one that it does not list cannot be opened.  It lists
every new story exactly if no client has overtaken another one between reading the catalog and
writing it. -/
theorem founded_of_finished (hkept : Kept records) (hids : Function.Injective ids)
    (hnew : ∀ i, ¬Stored.Registered records (ids i))
    (hfinished : ((founders ids records).play schedule).Finished) :
    let final := (founders ids records).play schedule
    (∀ i, final.scripts i = done (.ok (ids i))) ∧
      (∃ clients : List ι, clients.Nodup ∧ Stored.labels final.records .catalog =
        Stored.labels records .catalog ++ clients.map fun i => .text (ids i).spelling) ∧
      (∀ id, Stored.Registered final.records id → ∃ session,
        (Session.openStory id.spelling true).run final.records = (.ok session, final.records) ∧
          ∀ i, ids i = id → session.graph = .default ∧ session.store.definitions = .default) ∧
      (∀ id, ¬Stored.Registered final.records id →
        (Session.openStory id.spelling true).run final.records =
          (.error .storyNotFound, final.records)) ∧
      ((∀ i, (Stored.labels final.records .catalog).count (.text (ids i).spelling) = 1) ↔
        ∀ first second, ¬Overtakes schedule first second) := by
  intro final
  obtain ⟨known, hknown⟩ := hkept.catalog
  have h : Follows ids known (Ledger.play schedule) final := .play hkept hknown schedule
  have hsound := Ledger.sound_play schedule
  have hwritten := h.finished_iff.1 hfinished
  have hunknown (i : ι) : ids i ∉ known := by
    intro hmem
    refine hnew i ?_
    rw [Stored.Registered, hknown.labels, List.map_map]
    exact List.mem_map_of_mem hmem
  refine ⟨fun i => (h.scripts i).trans (Catalog.rest_of_four_le (hwritten i)),
    ⟨_, hsound.entered.nodup, ?_⟩, fun id hlisted => ?_, fun id hmissing => ?_, ?_⟩
  · rw [h.labels, hknown.labels, List.map_append, List.map_map, List.map_map]
    rfl
  · refine ⟨_, Session.openStory_of_registered h.kept hlisted, ?_⟩
    rintro i rfl
    exact h.session_new (hwritten i)
  · rw [Session.run_openStory h.kept, if_neg hmissing]
  · have hcount (i : ι) :
        (Stored.labels final.records .catalog).count (.text (ids i).spelling) = 1 ↔
          i ∈ (Ledger.play schedule).entered := by
      rw [h.count_labels hids (hunknown i), hsound.entered.nodup.count]
      split <;> simp_all
    simp only [hcount]
    have hcomplete := hsound.complete
    simp only [Ledger.Written, hwritten, forall_const] at hcomplete
    rw [hcomplete]
    exact forall_comm

/-! ## Two clients -/

/-- The stories of two clients. -/
def twoIds (i : Bool) : Identifier := if i then ⟨2⟩ else ⟨1⟩

theorem twoIds_injective : Function.Injective twoIds := by decide

theorem follows_twoIds (schedule : List Bool) :
    Follows twoIds [] (Ledger.play schedule) ((founders twoIds .empty).play schedule) :=
  .play kept_empty (Or.inl ⟨rfl, rfl⟩) schedule

/-- Two clients of which one reads and writes the catalog before the other one does. -/
def inTurn : List Bool := [false, true, false, true, false, false, true, true]

theorem finished_inTurn : ((founders twoIds .empty).play inTurn).Finished :=
  (follows_twoIds inTurn).finished_iff.2 (by decide)

/-- Both stories are in the catalog then. -/
theorem founded_of_finished_inTurn :
    (∀ i, ¬Stored.Registered .empty (twoIds i)) ∧
      ((founders twoIds .empty).play inTurn).Finished ∧
      ∀ i, (Stored.labels ((founders twoIds .empty).play inTurn).records .catalog).count
        (.text (twoIds i).spelling) = 1 := by
  have hnew (i : Bool) : ¬Stored.Registered .empty (twoIds i) := List.not_mem_nil
  obtain ⟨-, -, -, -, hcomplete⟩ :=
    founded_of_finished kept_empty twoIds_injective hnew finished_inTurn
  exact ⟨hnew, finished_inTurn, hcomplete.2 (by decide)⟩

/-- Two clients that both read the catalog before either of them writes it. -/
def atOnce : List Bool := [false, false, false, true, true, true, false, true]

theorem finished_atOnce : ((founders twoIds .empty).play atOnce).Finished :=
  (follows_twoIds atOnce).finished_iff.2 (by decide)

/-- The story of a client can be lost, although the client has been given it. -/
theorem not_registered_of_finished : ¬∀ schedule : List Bool,
    ((founders twoIds .empty).play schedule).Finished → ∀ i,
      Stored.Registered ((founders twoIds .empty).play schedule).records (twoIds i) := by
  intro hclaim
  have hlisted := hclaim atOnce finished_atOnce false
  have hcount : (Ledger.play atOnce).entered.count false = 0 := by decide
  rw [← (follows_twoIds atOnce).count_labels twoIds_injective List.not_mem_nil] at hcount
  exact List.count_eq_zero.1 hcount hlisted

end Narrative
