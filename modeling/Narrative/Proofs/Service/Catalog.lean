import Narrative.Proofs.Service.Reachable

/-!
# The two readings of the catalog

The catalog is read in two ways.  The list of stories takes an entry for the story that it spells in
any way and skips what spells none.  A story is known, and can be opened, if its canonical spelling
is an entry.  So all known stories are in the list, but the list may show stories that nobody can
open: those that the catalog has in other spellings only.  The service itself writes nothing but
canonical spellings, so the two readings agree in every store that requests lead to.
-/

namespace Narrative

variable {records : Records} {entries : List Label} {id : Identifier}

namespace Catalog

/-- The catalog is a list of strings, whatever they are. -/
def Holds (records : Records) (entries : List Label) : Prop :=
  ∃ text, records.get? Repository.catalogKey = some text ∧
    Json.read .exchanged text = .ok (.arr (entries.map .ofLabel))

theorem asName_ofLabel (label : Label) : Json.asName (.ofLabel label) = label := by
  cases label <;> rfl

theorem run_load_of_holds (h : Holds records entries) :
    load.run records = (.ok entries, records) := by
  obtain ⟨text, htext, hread⟩ := h
  have hne : text.isEmpty = false := by
    rw [String.isEmpty_eq_false_iff]
    rintro rfl
    exact nomatch hread
  have hnames : Repository.parsedNames text = .ok entries := by
    rw [Repository.parsedNames, hne, hread]
    simp [Repository.names, Function.comp_def, asName_ofLabel]
  rw [load, Repository.loadNames, Attempt.run_bind, Attempt.run_lift, Repository.run_get, htext]
  simp only [Attempt.run_ofExcept, hnames]

/-- The stories that the entries spell. -/
def listed (entries : List Label) : List Identifier :=
  entries.filterMap fun
    | .text spelling => Identifier.ofLooseText? spelling
    | .torn .. => none

theorem run_stories (hload : load.run records = (.ok entries, records)) :
    stories.run records = (.ok (listed entries), records) := by
  rw [stories, Attempt.run_bind, hload]
  rfl

theorem mem_listed : id ∈ listed entries ↔
    ∃ spelling, .text spelling ∈ entries ∧ Identifier.ofLooseText? spelling = some id := by
  rw [listed, List.mem_filterMap]
  constructor
  · rintro ⟨entry, hentry, hread⟩
    cases entry with
    | text spelling => exact ⟨spelling, hentry, hread⟩
    | torn => exact nomatch hread
  · rintro ⟨spelling, hentry, hread⟩
    exact ⟨_, hentry, hread⟩

theorem mem_listed_of_mem (h : .text id.spelling ∈ entries) : id ∈ listed entries :=
  mem_listed.2 ⟨_, h, id.ofLooseText?_spelling⟩

/-! ## Agreement -/

/-- The two readings agree: the list shows just the stories that are known and can be opened. -/
def Agrees (records : Records) : Prop :=
  ∃ shown, stories.run records = (.ok shown, records) ∧ ∀ id : Identifier,
    (contains id.spelling).run records = (.ok (decide (id ∈ shown)), records) ∧
    (require id.spelling).run records =
      (if id ∈ shown then .ok () else .error .storyNotFound, records)

theorem agrees_iff_of_load (hload : load.run records = (.ok entries, records)) :
    Agrees records ↔ ∀ id ∈ listed entries, .text id.spelling ∈ entries := by
  constructor
  · rintro ⟨shown, hshown, hknown⟩ id hid
    rw [run_stories hload] at hshown
    obtain rfl : listed entries = shown := Except.ok.inj (congrArg Prod.fst hshown)
    have hcontains := (hknown id).1
    rw [run_contains hload] at hcontains
    exact (decide_eq_decide.1 (Except.ok.inj (congrArg Prod.fst hcontains))).2 hid
  · intro hcanonical
    refine ⟨listed entries, run_stories hload, fun id => ?_⟩
    have hiff : .text id.spelling ∈ entries ↔ id ∈ listed entries :=
      ⟨mem_listed_of_mem, hcanonical id⟩
    rw [run_contains hload, run_require hload]
    simp only [hiff, true_and]

/-- The entries of a kept store are canonical spellings. -/
theorem agrees_of_kept (h : Kept records) : Agrees records := by
  obtain ⟨ids, hids⟩ := h.catalog
  have hload : load.run records = (.ok (Stored.labels records .catalog), records) :=
    Repository.run_loadNames hids
  refine (agrees_iff_of_load hload).2 fun id hid => ?_
  obtain ⟨spelling, hentry, hread⟩ := mem_listed.1 hid
  have hmem : .text spelling ∈ (ids.map Identifier.spelling).map Label.text := hids.labels ▸ hentry
  rw [List.map_map] at hmem
  obtain ⟨other, -, heq⟩ := List.mem_map.1 hmem
  obtain rfl := Label.text.inj heq
  rw [Identifier.ofLooseText?_spelling] at hread
  rwa [← Option.some.inj hread]

end Catalog

/-- If the catalog is a list of strings, both of its readings succeed and change nothing.  The list
shows the stories that entries spell, in the order of the entries and in any form that requests may
use; a story is known and can be opened if its canonical spelling is an entry.  Then it is in the
list as well, so the two readings agree exactly if all stories of the list have their canonical
spelling among the entries.  In every store that requests lead to they agree. -/
theorem catalog_agrees_iff (records : Records) :
    (∀ entries, Catalog.Holds records entries →
      Catalog.stories.run records = (.ok (Catalog.listed entries), records) ∧
      (∀ id : Identifier,
        (Catalog.contains id.spelling).run records =
          (.ok (decide (.text id.spelling ∈ entries)), records) ∧
        (Catalog.require id.spelling).run records =
          (if .text id.spelling ∈ entries then .ok () else .error .storyNotFound, records)) ∧
      (∀ id : Identifier, .text id.spelling ∈ entries → id ∈ Catalog.listed entries) ∧
      (∀ (id : Identifier) spelling, .text spelling ∈ entries →
        Identifier.ofText? spelling = some id → id ∈ Catalog.listed entries) ∧
      (Catalog.Agrees records ↔
        ∀ id ∈ Catalog.listed entries, .text id.spelling ∈ entries)) ∧
    (Reachable records → Catalog.Agrees records) := by
  refine ⟨fun entries hholds => ?_, fun hreach => Catalog.agrees_of_kept hreach.kept⟩
  have hload := Catalog.run_load_of_holds hholds
  refine ⟨Catalog.run_stories hload,
    fun id => ⟨Catalog.run_contains hload _, Catalog.run_require hload _⟩,
    fun id => Catalog.mem_listed_of_mem, fun id spelling hentry hread => ?_,
    Catalog.agrees_iff_of_load hload⟩
  exact Catalog.mem_listed.2 ⟨spelling, hentry, Identifier.ofLooseText?_of_ofText? hread⟩

/-- One story without hyphens, another one in its canonical spelling, and what spells no story. -/
def foreignEntries : List String :=
  ["00000000000000000000000000000001", "00000000-0000-0000-0000-000000000002", "not a story"]

/-- A store with a catalog that the service has not written. -/
def foreignCatalog : Records :=
  Table.empty.insert Repository.catalogKey (Json.listText (foreignEntries.map .text))

theorem holds_foreignCatalog : Catalog.Holds foreignCatalog (foreignEntries.map .text) :=
  ⟨_, rfl, Json.read_listText foreignEntries (by decide)⟩

theorem listed_foreignEntries : Catalog.listed (foreignEntries.map .text) = [⟨1⟩, ⟨2⟩] := by
  decide +kernel

/-- The list shows both stories, but only the second one can be opened. -/
theorem catalog_agrees_iff_foreignCatalog :
    Catalog.Holds foreignCatalog (foreignEntries.map .text) ∧
    Catalog.stories.run foreignCatalog = (.ok [⟨1⟩, ⟨2⟩], foreignCatalog) ∧
    (Catalog.require (Identifier.mk 1).spelling).run foreignCatalog =
      (.error .storyNotFound, foreignCatalog) ∧
    (Catalog.require (Identifier.mk 2).spelling).run foreignCatalog = (.ok (), foreignCatalog) ∧
    Identifier.mk 1 ∈ Catalog.listed (foreignEntries.map .text) ∧
    Identifier.mk 2 ∈ Catalog.listed (foreignEntries.map .text) ∧
    ¬Catalog.Agrees foreignCatalog ∧ Catalog.Agrees newStory := by
  obtain ⟨hstories, hknown, hcanonical, hspelled, hagrees⟩ :=
    (catalog_agrees_iff foreignCatalog).1 _ holds_foreignCatalog
  have hmissing : .text (Identifier.mk 1).spelling ∉ foreignEntries.map Label.text := by decide
  have hentry : .text (Identifier.mk 2).spelling ∈ foreignEntries.map Label.text := by decide
  have hfirst : Identifier.mk 1 ∈ Catalog.listed (foreignEntries.map .text) :=
    hspelled _ "00000000000000000000000000000001" (by decide) (by decide)
  refine ⟨holds_foreignCatalog, ?_, ?_, ?_, hfirst, hcanonical _ hentry, ?_,
    (catalog_agrees_iff newStory).2 reachable_newStory⟩
  · rw [hstories, listed_foreignEntries]
  · rw [(hknown _).2, if_neg hmissing]
  · rw [(hknown _).2, if_pos hentry]
  · exact fun h => hmissing (hagrees.1 h _ hfirst)

/-- A catalog may list a story that cannot be opened. -/
theorem not_agrees_of_holds :
    ¬∀ records entries, Catalog.Holds records entries → Catalog.Agrees records := by
  intro hclaim
  have hagrees := hclaim _ _ holds_foreignCatalog
  rw [Catalog.agrees_iff_of_load (Catalog.run_load_of_holds holds_foreignCatalog),
    listed_foreignEntries] at hagrees
  exact absurd (hagrees _ List.mem_cons_self) (by decide)

end Narrative
