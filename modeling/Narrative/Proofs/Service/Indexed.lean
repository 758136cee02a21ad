import Narrative.Proofs.Service.CutOff
import Narrative.Proofs.Service.Refusals
import Narrative.Proofs.Service.Slots
import Narrative.Proofs.Storage.Index

/-!
# Slots are listed once they are stored

A save stores the position first and lists the name of the slot only then, and nothing else that a
request writes is a list of slots.  So wherever a request is cut off, every name that is listed has
its slot.  The slot that was being saved may be missing from the list, and the lock may be left
behind.
-/

namespace Narrative

open Attempt

variable {records : Records} {id : Identifier} {now : Instant} {time : ℤ}

/-! ## Wherever a request is cut off -/

/-- Scripts that write no list of slots leave the lists without gaps. -/
theorem passes_of_confined {α : Type} {reads writes : String → Prop} {yields : α → Prop}
    {attempt : Attempt α} (h : attempt.Confined reads writes yields)
    (hwrites : ∀ key, writes key →
      ∃ found : StoreKey, key = found.text ∧ ∀ id, found ≠ .story id .slotList)
    (hrecords : Indexed records) : attempt.Passes Indexed records := by
  refine Script.Confined.passes h (fun key value between hkey hbetween => ?_) hrecords
  obtain ⟨found, rfl, hlist⟩ := hwrites key hkey
  exact hbetween.insert hlist value

theorem passes_of_reads {α : Type} {reads : String → Prop} {yields : α → Prop}
    {attempt : Attempt α} (h : attempt.Confined reads (fun _ => False) yields)
    (hrecords : Indexed records) : attempt.Passes Indexed records :=
  passes_of_confined h (fun _ hno => hno.elim) hrecords

/-- The position is stored first, and its name is listed only then. -/
theorem passes_saveSlot (h : Indexed records) (name : String) (position : SaveSlot) :
    (Repository.saveSlot id.spelling name position).Passes Indexed records := by
  generalize hstored : records.insert (StoreKey.story id (.slot name)).text
    position.toJson.text = stored
  have hindexed : Indexed stored := hstored ▸ h.insert (by simp) _
  have hput : Attempt.Passes Indexed
      (liftM (Script.put (StoreKey.story id (.slot name)).text position.toJson.text)) records :=
    Script.passes_iff_step.2 ⟨h, Script.passes_done (h.insert (by simp) _)⟩
  have hnames : (Repository.listSlots id.spelling).Confined (fun _ => True) (fun _ => False)
      fun _ => True := Repository.confined_loadNames trivial
  have hlist := passes_of_reads hnames hindexed
  refine Passes.bind hput fun _ between hrun => ?_
  have hbetween : stored = between := hstored.symm.trans (congrArg Prod.snd hrun)
  subst hbetween
  obtain ⟨names, hnames⟩ := hindexed.listed id
  have hloaded : (Repository.listSlots id.spelling).run stored =
      (.ok (Stored.labels stored (.story id .slotList)), stored) :=
    Repository.run_loadNames hnames
  refine Passes.bind hlist fun slots between hslots => ?_
  obtain ⟨hslots, hbetween⟩ := Prod.mk.inj (hloaded.symm.trans hslots)
  obtain rfl := Except.ok.inj hslots
  subst hbetween
  -- The store with the new list is the one that the save ends with.
  have hsaved := h.saved id name position
  have hlabels : Stored.labels stored (.story id .slotList) =
      Stored.labels records (.story id .slotList) := by
    rw [Stored.labels, ← hstored, get?_insert_text, if_neg (by simp)]
    rfl
  by_cases hlisted : Label.text name ∈ Stored.labels stored (.story id .slotList)
  · rw [if_pos hlisted]
    exact Script.passes_done hindexed
  · rw [if_neg hlisted]
    refine Script.passes_iff_step.2 ⟨hindexed, Script.passes_done ?_⟩
    rw [saved, if_neg (hlabels ▸ hlisted), hstored, ← hlabels] at hsaved
    exact hsaved

theorem Attempt.Amends.passes {α : Type} {yields : α → Prop} {attempt : Attempt α}
    (h : Amends id yields attempt) (hrecords : Indexed records) :
    attempt.Passes Indexed records := by
  induction h generalizing records with
  | edits h =>
    refine passes_of_confined h (fun key hkey => ?_) hrecords
    rcases hkey with rfl | rfl
    · exact ⟨_, rfl, by simp⟩
    · exact ⟨_, rfl, by simp⟩
  | saves name position => exact passes_saveSlot hrecords name position
  | bind h _ ih ihf =>
    refine (ih hrecords).bind fun value after hrun => ?_
    have hyields := h.confined.ends_run records
    have hafter := (ih hrecords).run
    rw [hrun] at hafter
    exact ihf value (hyields value (congrArg Prod.fst hrun)) hafter

/-- Wherever a command is cut off, no name is listed whose slot holds no text. -/
theorem Command.passes_perform (command : Command) (assets : Option Assets) (now : Instant)
    (id : Identifier) (h : Indexed records) :
    (command.perform assets now id.spelling).Passes Indexed records := by
  have hchanges := command.changes_perform assets now id
  generalize command.perform assets now id.spelling = attempt at hchanges
  cases hchanges with
  | refused failure => exact Script.passes_done h
  | editing change reply hchange =>
    refine Passes.map ?_ reply
    apply passes_locked h (fun between value hbetween => hbetween.insert (by simp) value)
      (fun between hbetween => hbetween.erase_lock id)
    intro between hbetween
    have hconfined : (Session.openStory id.spelling true).Confined id.Sees (fun _ => False)
        fun session => session.Of id := Session.confined_openStory id
    have hopen := passes_of_reads hconfined hbetween
    refine hopen.bind fun session after hrun => ?_
    have hsession := hconfined.ends_run between
    have hafter := hopen.run
    rw [hrun] at hafter
    exact (hchange session (hsession session (congrArg Prod.fst hrun))).passes hafter

theorem Catalog.confined_create (id : Identifier) :
    (create id).Confined (fun _ => True)
      (fun key => key = StoreKey.catalog.text ∨ id.OwnsContent key) fun _ => True := by
  refine (confined_put (Or.inr (Or.inr rfl)) _).bind fun _ _ => ?_
  refine (confined_put (Or.inr (Or.inl rfl)) _).bind fun _ _ => ?_
  refine (Repository.confined_loadNames trivial).bind fun stories _ => ?_
  exact (confined_put (Or.inl rfl) _).bind fun _ _ => confined_pure trivial

/-- Wherever a request is cut off, no name is listed whose slot holds no text. -/
theorem Request.passes_perform (request : Request) (assets : Option Assets) (fresh : Identifier)
    (now : Instant) (h : Indexed records) :
    (request.perform assets fresh now).Passes Indexed records := by
  cases request with
  | health | about | documentation => exact Script.passes_done h
  | createStory =>
    have hcreate : (Attempt.unexplained (Catalog.create fresh)).Passes Indexed records := by
      refine passes_of_confined (Catalog.confined_create fresh).unexplained (fun key hkey => ?_) h
      rcases hkey with rfl | rfl | rfl
      · exact ⟨.catalog, rfl, by simp⟩
      · exact ⟨_, rfl, by simp⟩
      · exact ⟨_, rfl, by simp⟩
    rw [perform, bind_pure_comp]
    exact hcreate.map _
  | listStories =>
    rw [perform, bind_pure_comp]
    apply Passes.map
    have hstories : Catalog.stories.Confined (fun _ => True) (fun _ => False) fun _ => True :=
      (Repository.confined_loadNames trivial).bind fun _ _ => confined_pure trivial
    exact passes_of_reads hstories.unexplained h
  | query id query =>
    have hanswer : ((Request.query id query).perform assets fresh now).Confined id.Sees
        (fun _ => False) fun _ => True :=
      (Session.confined_openStory id).bind fun session hsession =>
        (query.confined_answer hsession now).mono (fun _ => Or.inr) fun _ h => h
    exact passes_of_reads hanswer h
  | command id command => exact command.passes_perform assets now id h

end Narrative
