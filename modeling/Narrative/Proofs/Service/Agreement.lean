import Narrative.Proofs.Service.Footprints
import Narrative.Proofs.Service.Looking

/-!
# Stores that agree

Two stores can agree on some parts of a story and differ in all others.  Attempts that only look at
the parts on which they agree cannot tell the stores apart, and what such attempts write makes the
stores agree on more.
-/

namespace Narrative

/-- The names in a stored list; where no list is stored there are none. -/
def Repository.listing : Option String → Except Failure (List Label)
  | none => .ok []
  | some text => parsedNames text

theorem Repository.run_loadNames_listing (key : String) (records : Records) :
    (loadNames key).run records = (listing (records.get? key), records) := by
  rw [loadNames, Attempt.run_bind, Attempt.run_lift, run_get]
  cases records.get? key with
  | none => rfl
  | some text => exact Attempt.run_ofExcept _ _

/-- The names of the save slots of a story can be read, whoever wrote them. -/
def Legible (records : Records) (id : Identifier) : Prop :=
  ∃ names : List String,
    Repository.listing (records.get? (StoreKey.story id .slotList).text) = .ok (names.map .text)

theorem Legible.congr {records other : Records} {id : Identifier} (h : Legible records id)
    (heq : other.get? (StoreKey.story id .slotList).text =
      records.get? (StoreKey.story id .slotList).text) : Legible other id := by
  rwa [Legible, heq]

theorem Listed.legible {records : Records} {id : Identifier} (h : Listed records id) :
    Legible records id := by
  obtain ⟨names, ⟨hnone, rfl⟩ | hsome⟩ := h
  · exact ⟨[], congrArg Repository.listing hnone⟩
  · exact ⟨names, (congrArg Repository.listing hsome).trans (Repository.parsedNames_listText names)⟩

/-- The stores agree on the lock of a story, on the catalog, and on some parts of the story.  The
lists of the names of the save slots may differ if both of them can be read; one that cannot be read
fails whatever saves a position. -/
structure Agree (id : Identifier) (parts : StoryKey → Prop) (records other : Records) : Prop where
  lock : records.get? (StoreKey.lock id).text = other.get? (StoreKey.lock id).text
  catalog : records.get? StoreKey.catalog.text = other.get? StoreKey.catalog.text
  part : ∀ part, parts part →
    records.get? (StoreKey.story id part).text = other.get? (StoreKey.story id part).text
  slotList : records.get? (StoreKey.story id .slotList).text =
      other.get? (StoreKey.story id .slotList).text ∨ Legible records id ∧ Legible other id

namespace Agree

variable {id : Identifier} {parts more : StoryKey → Prop} {records other after later : Records}

theorem mono (h : Agree id parts records other) (hparts : ∀ part, more part → parts part) :
    Agree id more records other :=
  { h with part := fun part hpart => h.part part (hparts part hpart) }

/-- Stores agree as before when only the lock has changed, in both of them alike. -/
theorem relock (h : Agree id parts records other)
    (hlock : after.get? (StoreKey.lock id).text = later.get? (StoreKey.lock id).text)
    (hafter : ∀ key : StoreKey, .lock id ≠ key → after.get? key.text = records.get? key.text)
    (hlater : ∀ key : StoreKey, .lock id ≠ key → later.get? key.text = other.get? key.text) :
    Agree id parts after later := by
  have hkey (key : StoreKey) (hne : .lock id ≠ key)
      (hsame : records.get? key.text = other.get? key.text) :
      after.get? key.text = later.get? key.text := by
    rw [hafter key hne, hlater key hne, hsame]
  refine ⟨hlock, hkey _ (by simp) h.catalog,
    fun part hpart => hkey _ (by simp) (h.part part hpart), ?_⟩
  rcases h.slotList with hsame | ⟨hlegible, hother⟩
  · exact Or.inl (hkey _ (by simp) hsame)
  · exact Or.inr ⟨hlegible.congr (hafter _ (by simp)), hother.congr (hlater _ (by simp))⟩

theorem insert_lock (h : Agree id parts records other) (value : String) :
    Agree id parts (records.insert (StoreKey.lock id).text value)
      (other.insert (StoreKey.lock id).text value) := by
  refine h.relock ?_ (fun key hkey => ?_) fun key hkey => ?_
  · rw [get?_insert_text, get?_insert_text, if_pos rfl, if_pos rfl]
  · rw [get?_insert_text, if_neg hkey]
  · rw [get?_insert_text, if_neg hkey]

theorem erase_lock (h : Agree id parts records other) :
    Agree id parts (records.erase (StoreKey.lock id).text)
      (other.erase (StoreKey.lock id).text) := by
  refine h.relock ?_ (fun key hkey => ?_) fun key hkey => ?_
  · rw [get?_erase_text, get?_erase_text, if_pos rfl, if_pos rfl]
  · rw [get?_erase_text, if_neg hkey]
  · rw [get?_erase_text, if_neg hkey]

/-- A text that is written to both stores makes them agree on one more part. -/
theorem insert_slot (h : Agree id parts records other) (name text : String) :
    Agree id (fun part => parts part ∨ part = .slot name)
      (records.insert (StoreKey.story id (.slot name)).text text)
      (other.insert (StoreKey.story id (.slot name)).text text) := by
  have hframe (records : Records) (key : StoreKey) (hne : .story id (.slot name) ≠ key) :
      (records.insert (StoreKey.story id (.slot name)).text text).get? key.text =
        records.get? key.text := by
    rw [get?_insert_text, if_neg hne]
  refine ⟨?_, ?_, fun part hpart => ?_, ?_⟩
  · rw [hframe records _ (by simp), hframe other _ (by simp), h.lock]
  · rw [hframe records _ (by simp), hframe other _ (by simp), h.catalog]
  · rw [get?_insert_text, get?_insert_text]
    split
    case isTrue => rfl
    case isFalse hne => exact h.part part (hpart.resolve_right fun heq => hne (heq ▸ rfl))
  · rw [hframe records _ (by simp), hframe other _ (by simp)]
    exact h.slotList.imp_right (And.imp (Legible.congr · (hframe records _ (by simp)))
      (Legible.congr · (hframe other _ (by simp))))

end Agree

/-! ## Attempts that cannot tell stores apart -/

/-- On stores that agree the attempt has the same outcome.  If it goes through, the stores agree on
perhaps other parts than before; if it fails, they agree as before. -/
def Attempt.Determined {α : Type} (id : Identifier) (before after : StoryKey → Prop)
    (yields : α → Prop) (attempt : Attempt α) : Prop :=
  ∀ records other, Agree id before records other → ∃ outcome afterOne afterOther,
    attempt.run records = (outcome, afterOne) ∧ attempt.run other = (outcome, afterOther) ∧
    match outcome with
    | .ok value => yields value ∧ Agree id after afterOne afterOther
    | .error _ => Agree id before afterOne afterOther

namespace Attempt

variable {α β : Type} {id : Identifier} {before between after : StoryKey → Prop}
  {yields : α → Prop} {attempt : Attempt α}

theorem determined_ofExcept {outcome : Except Failure α}
    (h : ∀ value, outcome = .ok value → yields value) :
    (ofExcept outcome).Determined id before before yields := by
  intro records other hagree
  refine ⟨outcome, records, other, run_ofExcept .., run_ofExcept .., ?_⟩
  cases outcome with
  | ok value => exact ⟨h value rfl, hagree⟩
  | error failure => exact hagree

theorem determined_pure {value : α} (h : yields value) :
    Determined id before before yields (pure value) := by
  change (ofExcept (.ok value)).Determined id before before yields
  refine determined_ofExcept ?_
  rintro _ ⟨⟩
  exact h

theorem determined_throw (failure : Failure) :
    Determined id before before yields (throw failure : Attempt α) := by
  change (ofExcept (.error failure)).Determined id before before yields
  refine determined_ofExcept ?_
  rintro _ ⟨⟩

/-- An attempt that only reads cannot tell stores apart if they agree on all that it reads. -/
theorem OnlyReads.determined (h : attempt.OnlyReads)
    (hsame : ∀ records other, Agree id before records other →
      (attempt.run records).1 = (attempt.run other).1)
    (hyields : ∀ records value, (attempt.run records).1 = .ok value → yields value) :
    attempt.Determined id before before yields := by
  intro records other hagree
  refine ⟨(attempt.run records).1, records, other, Prod.ext rfl (h records),
    Prod.ext (hsame records other hagree).symm (h other), ?_⟩
  cases houtcome : (attempt.run records).1 with
  | ok value => exact ⟨hyields records value houtcome, hagree⟩
  | error failure => exact hagree

theorem Determined.bind (h : attempt.Determined id before between yields) {f : α → Attempt β}
    {results : β → Prop}
    (hf : ∀ value, yields value → (f value).Determined id between after results)
    (hparts : ∀ part, before part → between part) :
    (attempt >>= f).Determined id before after results := by
  intro records other hagree
  obtain ⟨outcome, afterOne, afterOther, hone, hother, hrest⟩ := h records other hagree
  rw [run_bind, run_bind, hone, hother]
  cases outcome with
  | error failure => exact ⟨_, _, _, rfl, rfl, hrest⟩
  | ok value =>
    obtain ⟨result, finalOne, finalOther, hfinal, hfinalOther, hend⟩ :=
      hf value hrest.1 afterOne afterOther hrest.2
    refine ⟨result, finalOne, finalOther, hfinal, hfinalOther, ?_⟩
    cases result with
    | ok value => exact hend
    | error failure => exact hend.mono hparts

theorem Determined.mono (h : attempt.Determined id before after yields) {fewer : StoryKey → Prop}
    (hparts : ∀ part, fewer part → after part) : attempt.Determined id before fewer yields := by
  intro records other hagree
  obtain ⟨outcome, afterOne, afterOther, hone, hother, hrest⟩ := h records other hagree
  refine ⟨outcome, afterOne, afterOther, hone, hother, ?_⟩
  cases outcome with
  | ok value => exact ⟨hrest.1, hrest.2.mono hparts⟩
  | error failure => exact hrest

theorem run_locked_congr {key : String} {other : Attempt α}
    (h : ∀ records, attempt.run records = other.run records) (records : Records) :
    (locked key attempt).run records = (locked key other).run records := by
  cases hheld : records.contains key with
  | true => rw [run_locked_of_contains _ hheld, run_locked_of_contains _ hheld]
  | false => rw [run_locked_of_not_contains _ hheld, run_locked_of_not_contains _ hheld, h]

/-- Under its lock an attempt cannot tell more stores apart. -/
theorem Determined.locked (h : attempt.Determined id before after yields) :
    (locked (Repository.lockKey id.spelling) attempt).Determined id before after yields := by
  intro records other hagree
  have hlock : records.contains (Repository.lockKey id.spelling) =
      other.contains (Repository.lockKey id.spelling) := congrArg Option.isSome hagree.lock
  cases hheld : records.contains (Repository.lockKey id.spelling) with
  | true =>
    exact ⟨_, _, _, run_locked_of_contains attempt hheld,
      run_locked_of_contains attempt (hlock.symm.trans hheld), hagree⟩
  | false =>
    obtain ⟨outcome, afterOne, afterOther, hone, hother, hrest⟩ :=
      h _ _ (hagree.insert_lock "1")
    have hkey : (StoreKey.lock id).text = Repository.lockKey id.spelling := rfl
    rw [hkey] at hone hother
    refine ⟨outcome, afterOne.erase (StoreKey.lock id).text,
      afterOther.erase (StoreKey.lock id).text, ?_, ?_, ?_⟩
    · rw [run_locked_of_not_contains attempt hheld, hone, hkey]
    · rw [run_locked_of_not_contains attempt (hlock.symm.trans hheld), hother, hkey]
    · cases outcome with
      | ok value => exact ⟨hrest.1, hrest.2.erase_lock⟩
      | error failure => exact hrest.erase_lock

end Attempt

/-! ## Saving -/

namespace Repository

variable {id : Identifier} {parts : StoryKey → Prop} {records other : Records}

/-- Put the name of a save slot into the list, if it is new. -/
def enlist (story slot : String) : Attempt Unit := do
  let slots ← listSlots story
  unless Label.text slot ∈ slots do
    Script.put (slotListKey story) (Json.listText (slots ++ [.text slot]))

theorem run_saveSlot_enlist (id : Identifier) (name : String) (position : SaveSlot)
    (records : Records) : (saveSlot id.spelling name position).run records =
      (enlist id.spelling name).run
        (records.insert (StoreKey.story id (.slot name)).text position.toJson.text) := by
  rw [saveSlot, Attempt.run_bind, Attempt.run_lift, run_put]
  rfl

theorem confined_enlist (id : Identifier) (name : String) :
    (enlist id.spelling name).Confined (fun key => key = (StoreKey.story id .slotList).text)
      (fun key => key = (StoreKey.story id .slotList).text) fun _ => True := by
  have hlist : (listSlots id.spelling).Confined
      (fun key => key = (StoreKey.story id .slotList).text)
      (fun key => key = (StoreKey.story id .slotList).text) fun _ => True :=
    confined_loadNames rfl
  refine hlist.bind fun slots _ => ?_
  split
  · exact Attempt.confined_pure trivial
  · refine Attempt.confined_put ?_ _
    rfl

/-- Putting a name into a list that can be read goes through, and the list can be read then. -/
theorem legible_enlist (h : Legible records id) (name : String) :
    ((enlist id.spelling name).run records).1 = .ok () ∧
      Legible ((enlist id.spelling name).run records).2 id := by
  obtain ⟨names, hnames⟩ := h
  have hlist : (listSlots id.spelling).run records = (.ok (names.map .text), records) :=
    (run_loadNames_listing _ records).trans (Prod.ext hnames rfl)
  rw [enlist, Attempt.run_bind, hlist]
  by_cases hmem : Label.text name ∈ names.map Label.text
  · simp only [hmem]
    exact ⟨rfl, names, hnames⟩
  · simp only [hmem]
    refine ⟨rfl, names ++ [name], ?_⟩
    change listing ((records.insert (StoreKey.story id .slotList).text _).get? _) = _
    rw [get?_insert_text, if_pos rfl]
    have hmap : names.map Label.text ++ [Label.text name] = (names ++ [name]).map Label.text := by
      rw [List.map_append, List.map_singleton]
    rw [hmap]
    exact parsedNames_listText _

/-- Stores that agree still do so when a name has been put into their lists. -/
theorem agree_enlist (hagree : Agree id parts records other) (name : String) :
    ((enlist id.spelling name).run records).1 = ((enlist id.spelling name).run other).1 ∧
      Agree id parts ((enlist id.spelling name).run records).2
        ((enlist id.spelling name).run other).2 := by
  by_cases hsame : records.get? (StoreKey.story id .slotList).text =
      other.get? (StoreKey.story id .slotList).text
  · -- The same list is read and written alike, whatever it holds.
    obtain ⟨houtcome, hkept⟩ :=
      (confined_enlist id name).run_congr fun key (hkey : key = _) => hkey ▸ hsame
    exact ⟨houtcome, hkept _ hagree.lock, hkept _ hagree.catalog,
      fun part hpart => hkept _ (hagree.part part hpart), Or.inl (hkept _ hsame)⟩
  · obtain ⟨hlegible, hother⟩ := hagree.slotList.resolve_left hsame
    obtain ⟨hone, hafter⟩ := legible_enlist hlegible name
    obtain ⟨htwo, hlater⟩ := legible_enlist hother name
    have hframe (records : Records) (key : StoreKey) (hkey : key ≠ .story id .slotList) :
        ((enlist id.spelling name).run records).2.get? key.text = records.get? key.text :=
      (confined_enlist id name).get?_run (fun heq => hkey (StoreKey.text_injective heq)) records
    have hkept (key : StoreKey) (hkey : key ≠ .story id .slotList)
        (heq : records.get? key.text = other.get? key.text) :
        ((enlist id.spelling name).run records).2.get? key.text =
          ((enlist id.spelling name).run other).2.get? key.text := by
      rw [hframe records key hkey, hframe other key hkey, heq]
    refine ⟨hone.trans htwo.symm, hkept _ (by simp) hagree.lock, hkept _ (by simp) hagree.catalog,
      fun part hpart => hkept _ (fun heq => hsame ?_) (hagree.part part hpart),
      Or.inr ⟨hafter, hlater⟩⟩
    exact heq ▸ hagree.part part hpart

/-- Saving a position makes stores agree on its slot. -/
theorem determined_saveSlot (name : String) (position : SaveSlot) :
    (saveSlot id.spelling name position).Determined id parts
      (fun part => parts part ∨ part = .slot name) fun _ => True := by
  intro records other hagree
  obtain ⟨houtcome, hafter⟩ := agree_enlist (hagree.insert_slot name position.toJson.text) name
  rw [run_saveSlot_enlist, run_saveSlot_enlist]
  generalize (enlist id.spelling name).run (records.insert _ _) = one at houtcome hafter ⊢
  generalize (enlist id.spelling name).run (other.insert _ _) = two at houtcome hafter ⊢
  refine ⟨one.1, one.2, two.2, rfl, Prod.ext houtcome.symm rfl, ?_⟩
  split
  · exact ⟨trivial, hafter⟩
  · exact hafter.mono fun _ => Or.inl

end Repository

end Narrative
