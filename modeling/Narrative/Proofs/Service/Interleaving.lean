import Narrative.Proofs.Service.Guarded
import Narrative.Proofs.Service.Reachable
import Mathlib.Data.Fintype.Card

/-!
# Requests at the same time

Any number of clients carry out their commands on a shared store, and the single commands to the
store come in any order.  No two clients are between taking and giving back the lock of one story at
the same time, a client that is refused changes nothing, and in the end the store and all answers
are those of the clients that took a lock one after the other, in the order in which they took it.
-/

namespace Narrative

open Script (done read write claim remove)

/-- Where a client is with respect to the lock that it asks for. -/
inductive Phase where
  /-- The client has not asked yet. -/
  | outside
  /-- The client has taken the lock and not given it back yet. -/
  | inside
  /-- The client has given the lock back. -/
  | left
  /-- The lock was not free when the client asked for it. -/
  | refused
deriving DecidableEq

/-- Whether the next command of a script takes a lock. -/
def Script.takes {α : Type} : Script α → Records → Bool
  | claim key _ _, records => !records.contains key
  | _, _ => false

/-- The phase after the next command of a script. -/
def Phase.next {α : Type} (script : Script α) (records : Records) (phase : Phase) : Phase :=
  match script with
  | claim _ _ _ => if script.takes records then inside else refused
  | remove _ _ => left
  | _ => phase

/-- Clients that share a store. -/
structure Crowd (ι α : Type) where
  /-- The store. -/
  records : Records
  /-- What is left of the script of each client. -/
  scripts : ι → Script α
  /-- The phase of each client. -/
  phases : ι → Phase
  /-- The clients that have taken a lock, in the order in which they took it. -/
  order : List ι

namespace Crowd

variable {ι α : Type}

/-- Clients that have not begun. -/
def start (scripts : ι → Script α) (records : Records) : Crowd ι α :=
  { records, scripts, phases := fun _ => .outside, order := [] }

/-- All clients are through. -/
def Finished (crowd : Crowd ι α) : Prop := ∀ i, ∃ result, crowd.scripts i = done result

/-- The store after some clients have carried out their scripts one after the other. -/
def serially (scripts : ι → Script α) (records : Records) (order : List ι) : Records :=
  order.foldl (fun records i => ((scripts i).run records).2) records

theorem serially_append (scripts : ι → Script α) (records : Records) (order : List ι) (i : ι) :
    serially scripts records (order ++ [i]) =
      ((scripts i).run (serially scripts records order)).2 := by
  rw [serially, List.foldl_append]
  rfl

/-- One client carries out its next command. -/
def next [DecidableEq ι] (crowd : Crowd ι α) (i : ι) : Crowd ι α :=
  let script := crowd.scripts i
  { records := (script.step crowd.records).2
    scripts := Function.update crowd.scripts i (script.step crowd.records).1
    phases := Function.update crowd.phases i ((crowd.phases i).next script crowd.records)
    order := if script.takes crowd.records then crowd.order ++ [i] else crowd.order }

/-- The clients carry out their commands one by one, in the order of a schedule. -/
def play [DecidableEq ι] (crowd : Crowd ι α) (schedule : List ι) : Crowd ι α :=
  schedule.foldl next crowd

section Commands

variable [DecidableEq ι] {crowd : Crowd ι α} {i : ι} {key value : String}

/-- A client that is through does nothing any more. -/
theorem next_of_done {result : α} (h : crowd.scripts i = done result) : crowd.next i = crowd := by
  have hscripts : Function.update crowd.scripts i (done result) = crowd.scripts := by
    rw [← h, Function.update_eq_self]
  have hphases : (crowd.phases i).next (done result) crowd.records = crowd.phases i := rfl
  simp only [next, h, Script.step, Script.takes, hscripts, hphases, Function.update_eq_self]
  rfl

theorem next_of_read {next : Option String → Script α} (h : crowd.scripts i = read key next) :
    crowd.next i = { crowd with
      scripts := Function.update crowd.scripts i (next (crowd.records.get? key)) } := by
  simp [Crowd.next, h, Script.step, Script.takes, Phase.next]

theorem next_of_write {next : Script α} (h : crowd.scripts i = write key value next) :
    crowd.next i = { crowd with
      records := crowd.records.insert key value
      scripts := Function.update crowd.scripts i next } := by
  simp [Crowd.next, h, Script.step, Script.takes, Phase.next]

theorem next_of_remove {next : Script α} (h : crowd.scripts i = remove key next) :
    crowd.next i = { crowd with
      records := crowd.records.erase key
      scripts := Function.update crowd.scripts i next
      phases := Function.update crowd.phases i .left } := by
  simp [Crowd.next, h, Script.step, Script.takes, Phase.next]

/-- A client that asks for a lock in use is refused. -/
theorem next_of_locked {next : Bool → Script α} (h : crowd.scripts i = claim key value next)
    (hlocked : crowd.records.contains key) :
    crowd.next i = { crowd with
      scripts := Function.update crowd.scripts i (next false)
      phases := Function.update crowd.phases i .refused } := by
  simp [Crowd.next, h, Script.step, Script.takes, Phase.next, hlocked]

/-- A client that asks for a free lock takes it. -/
theorem next_of_free {next : Bool → Script α} (h : crowd.scripts i = claim key value next)
    (hfree : crowd.records.contains key = false) :
    crowd.next i = {
      records := crowd.records.insert key value
      scripts := Function.update crowd.scripts i (next true)
      phases := Function.update crowd.phases i .inside
      order := crowd.order ++ [i] } := by
  simp [Crowd.next, h, Script.step, Script.takes, Phase.next, hfree]

end Commands

/-! ## What every interleaving keeps -/

/-- What is left of the script of a client fits its phase. -/
def Fits (id : Identifier) (refusal : α) (begun left : Script α) : Phase → Prop
  | .outside => left = begun
  | .inside => left.Holds id
  | .left => ∃ result, left = done result
  | .refused => left = done refusal

/-- What the clients have done so far fits what they do one after the other: the keys that no lock
in use guards are settled, and finishing what is left under a lock would settle those that it
guards. -/
structure Consistent (stories : ι → Identifier) (refusal : α) (scripts : ι → Script α)
    (records : Records) (crowd : Crowd ι α) : Prop where
  fits : ∀ i, Fits (stories i) refusal (scripts i) (crowd.scripts i) (crowd.phases i)
  locked : ∀ i, crowd.phases i = .inside →
    crowd.records.get? (StoreKey.lock (stories i)).text ≠ none
  alone : ∀ i j, crowd.phases i = .inside → crowd.phases j = .inside → stories i = stories j →
    i = j
  nodup : crowd.order.Nodup
  mem_order : ∀ i, i ∈ crowd.order ↔ crowd.phases i = .inside ∨ crowd.phases i = .left
  settled : ∀ key, (∀ i, crowd.phases i = .inside → ¬(stories i).Guards key) →
    crowd.records.get? key = (serially scripts records crowd.order).get? key
  pending : ∀ i, crowd.phases i = .inside → ∀ key, (stories i).Guards key →
    ((crowd.scripts i).run crowd.records).2.get? key =
      (serially scripts records crowd.order).get? key
  answers : ∀ before i after, crowd.order = before ++ i :: after →
    ((crowd.scripts i).run crowd.records).1 =
      ((scripts i).run (serially scripts records before)).1

variable {stories : ι → Identifier} {refusal : α} {scripts : ι → Script α} {records : Records}
  {crowd : Crowd ι α} {i j : ι} {script : Script α} {after : Records}

theorem consistent_start (stories : ι → Identifier) (refusal : α) (scripts : ι → Script α)
    (records : Records) : Consistent stories refusal scripts records (start scripts records) where
  fits := fun _ => rfl
  locked := fun _ h => nomatch h
  alone := fun _ _ h => nomatch h
  nodup := List.nodup_nil
  mem_order := fun _ => by simp [start]
  settled := fun _ _ => rfl
  pending := fun _ h => nomatch h
  answers := fun before _ _ h => absurd h.symm (by simp [start])

namespace Consistent

theorem holds (h : Consistent stories refusal scripts records crowd)
    (hi : crowd.phases i = .inside) : (crowd.scripts i).Holds (stories i) := by
  have hfits := h.fits i
  rwa [hi] at hfits

/-- Two clients that hold a lock hold those of different stories. -/
theorem stories_ne (h : Consistent stories refusal scripts records crowd)
    (hi : crowd.phases i = .inside) (hj : crowd.phases j = .inside) (hji : j ≠ i) :
    stories j ≠ stories i := fun heq => hji (h.alone j i hj hi heq)

section Others

-- What changes is guarded by the lock of one story at a time, so it makes no difference to a client
-- that holds the lock of another story.

variable {id : Identifier} (h : Consistent stories refusal scripts records crowd)
  (hframe : ∀ key, ¬id.Guards key → after.get? key = crowd.records.get? key)

include h hframe

theorem locked_of_frame (hj : crowd.phases j = .inside) (hne : stories j ≠ id) :
    after.get? (StoreKey.lock (stories j)).text ≠ none := by
  rw [hframe _ (Identifier.not_guards_lock hne)]
  exact h.locked j hj

theorem pending_of_frame (hj : crowd.phases j = .inside) (hne : stories j ≠ id) {key : String}
    (hkey : (stories j).Guards key) :
    ((crowd.scripts j).run after).2.get? key =
      (serially scripts records crowd.order).get? key :=
  (((h.holds hj).run_of_frame hne hframe).2 key hkey).trans (h.pending j hj key hkey)

theorem answers_of_frame {before rest : List ι} (horder : crowd.order = before ++ j :: rest)
    (hne : crowd.phases j = .inside → stories j ≠ id) :
    ((crowd.scripts j).run after).1 = ((scripts j).run (serially scripts records before)).1 := by
  have hfits := h.fits j
  rw [← h.answers before j rest horder]
  rcases (h.mem_order j).1 (by simp [horder]) with hinside | hleft
  · exact ((h.holds hinside).run_of_frame (hne hinside) hframe).1
  · rw [hleft] at hfits
    obtain ⟨result, hresult⟩ := hfits
    rw [hresult]
    rfl

end Others

/-- A client that takes a free lock is about to do what it does after all that took a lock before:
they have left the lock free as well, and what the client sees is settled. -/
theorem serially_of_free (h : Consistent stories refusal scripts records crowd)
    {value : String} {next : Bool → Script α}
    (hscript : scripts i = claim (StoreKey.lock (stories i)).text value next)
    (hheld : (next true).Holds (stories i))
    (hfree : crowd.records.get? (StoreKey.lock (stories i)).text = none) :
    let begun := (next true).run (crowd.records.insert (StoreKey.lock (stories i)).text value)
    begun.1 = ((scripts i).run (serially scripts records crowd.order)).1 ∧
      (∀ key, (stories i).Guards key →
        begun.2.get? key = (serially scripts records (crowd.order ++ [i])).get? key) ∧
      ∀ key, ¬(stories i).Guards key →
        (serially scripts records (crowd.order ++ [i])).get? key =
          (serially scripts records crowd.order).get? key := by
  intro begun
  have hsettled (key : String) (hkey : ∀ j, crowd.phases j = .inside → ¬(stories j).Guards key) :=
    h.settled key hkey
  rw [serially_append]
  generalize serially scripts records crowd.order = serial at hsettled ⊢
  have hother {j : ι} (hj : crowd.phases j = .inside) : stories j ≠ stories i :=
    fun heq => h.locked j hj (heq ▸ hfree)
  have hserialFree : serial.contains (StoreKey.lock (stories i)).text = false := by
    rw [Table.contains_eq_false, ← hsettled _ fun j hj hguards =>
      hother hj (hguards.eq (Or.inl rfl))]
    exact hfree
  have hscriptRun : (scripts i).run serial =
      (next true).run (serial.insert (StoreKey.lock (stories i)).text value) := by
    simp [hscript, Script.run, hserialFree]
  have hsees (key : String) (hkey : (stories i).Sees key) :
      (crowd.records.insert (StoreKey.lock (stories i)).text value).get? key =
        (serial.insert (StoreKey.lock (stories i)).text value).get? key := by
    rw [Table.get?_insert, Table.get?_insert,
      hsettled key fun j hj hguards => hother hj (hkey.eq hguards).symm]
  obtain ⟨hanswer, hkeys⟩ := hheld.run_congr hsees
  rw [hscriptRun]
  refine ⟨hanswer, hkeys, fun key hkey => ?_⟩
  rw [hheld.get?_run hkey, Table.get?_insert, if_neg fun heq => hkey (Or.inl heq.symm)]

variable [DecidableEq ι]

theorem fits_update (h : Consistent stories refusal scripts records crowd) (i : ι)
    {phase : Phase} (hi : Fits (stories i) refusal (scripts i) script phase) (j : ι) :
    Fits (stories j) refusal (scripts j) (Function.update crowd.scripts i script j)
      (Function.update crowd.phases i phase j) := by
  by_cases hji : j = i
  · subst hji
    simpa using hi
  · simpa [hji] using h.fits j

/-- A client that is not let in changes nothing. -/
theorem refuse (h : Consistent stories refusal scripts records crowd)
    (hi : crowd.phases i = .outside) :
    Consistent stories refusal scripts records
      { crowd with
        scripts := Function.update crowd.scripts i (done refusal)
        phases := Function.update crowd.phases i .refused } := by
  have hphases (j : ι) (phase : Phase) (hphase : phase = .inside ∨ phase = .left) :
      Function.update crowd.phases i .refused j = phase ↔ crowd.phases j = phase := by
    by_cases hji : j = i
    · subst hji
      rcases hphase with rfl | rfl <;> simp [hi]
    · simp [hji]
  have hscripts (j : ι) (hj : j ∈ crowd.order) :
      Function.update crowd.scripts i (done refusal) j = crowd.scripts j := by
    refine Function.update_of_ne ?_ _ _
    rintro rfl
    rw [h.mem_order, hi] at hj
    simp at hj
  have hinside (j : ι) := hphases j .inside (Or.inl rfl)
  refine ⟨h.fits_update i rfl, ?_, ?_, h.nodup, ?_, ?_, ?_, ?_⟩
  · exact fun j hj => h.locked j ((hinside j).1 hj)
  · exact fun j k hj hk => h.alone j k ((hinside j).1 hj) ((hinside k).1 hk)
  · intro j
    rw [h.mem_order, hinside, hphases j .left (Or.inr rfl)]
  · exact fun key hkey => h.settled key fun j hj => hkey j ((hinside j).2 hj)
  · intro j hj key hkey
    have hmem : j ∈ crowd.order := (h.mem_order j).2 (Or.inl ((hinside j).1 hj))
    simp only [hscripts j hmem]
    exact h.pending j ((hinside j).1 hj) key hkey
  · intro before j rest horder
    have hmem : j ∈ crowd.order := by simp [show crowd.order = _ from horder]
    simp only [hscripts j hmem]
    exact h.answers before j rest horder

/-- A client that holds a lock reads, or writes what the lock guards. -/
theorem work (h : Consistent stories refusal scripts records crowd)
    (hi : crowd.phases i = .inside) (hheld : script.Holds (stories i))
    (hstep : (crowd.scripts i).step crowd.records = (script, after))
    (hlock : after.get? (StoreKey.lock (stories i)).text =
      crowd.records.get? (StoreKey.lock (stories i)).text)
    (hframe : ∀ key, ¬(stories i).Guards key → after.get? key = crowd.records.get? key) :
    Consistent stories refusal scripts records
      { crowd with records := after, scripts := Function.update crowd.scripts i script } := by
  have hrun : script.run after = (crowd.scripts i).run crowd.records := by
    rw [← Script.run_step (crowd.scripts i), hstep]
  refine ⟨?_, ?_, h.alone, h.nodup, h.mem_order, ?_, ?_, ?_⟩
  · have hfits : Fits (stories i) refusal (scripts i) script (crowd.phases i) := by rwa [hi]
    simpa only [Function.update_eq_self] using h.fits_update i hfits
  · intro j hj
    by_cases hji : j = i
    · subst hji
      exact hlock ▸ h.locked j hj
    · exact h.locked_of_frame hframe hj (h.stories_ne hi hj hji)
  · exact fun key hkey => (hframe key (hkey i hi)).trans (h.settled key hkey)
  · intro j hj key hkey
    by_cases hji : j = i
    · subst hji
      simp only [Function.update_self, hrun]
      exact h.pending j hj key hkey
    · simp only [Function.update_of_ne hji]
      exact h.pending_of_frame hframe hj (h.stories_ne hi hj hji) hkey
  · intro before j rest horder
    by_cases hji : j = i
    · subst hji
      simp only [Function.update_self, hrun]
      exact h.answers before j rest horder
    · simp only [Function.update_of_ne hji]
      exact h.answers_of_frame hframe horder fun hj => h.stories_ne hi hj hji

/-- A client gives back its lock. -/
theorem leave (h : Consistent stories refusal scripts records crowd)
    (hi : crowd.phases i = .inside) {result : α}
    (hscript : crowd.scripts i = remove (StoreKey.lock (stories i)).text (done result)) :
    Consistent stories refusal scripts records
      { crowd with
        records := crowd.records.erase (StoreKey.lock (stories i)).text
        scripts := Function.update crowd.scripts i (done result)
        phases := Function.update crowd.phases i .left } := by
  have hrun : (crowd.scripts i).run crowd.records =
      (result, crowd.records.erase (StoreKey.lock (stories i)).text) := by
    rw [hscript]
    rfl
  have hframe (key : String) (hkey : ¬(stories i).Guards key) :
      (crowd.records.erase (StoreKey.lock (stories i)).text).get? key =
        crowd.records.get? key := by
    rw [Table.get?_erase, if_neg fun heq => hkey (Or.inl heq.symm)]
  have hinside {j : ι} : Function.update crowd.phases i .left j = .inside ↔
      j ≠ i ∧ crowd.phases j = .inside := by
    by_cases hji : j = i
    · subst hji
      simp
    · simp [hji]
  refine ⟨h.fits_update i ⟨result, rfl⟩, ?_, ?_, h.nodup, ?_, ?_, ?_, ?_⟩
  · intro j hj
    obtain ⟨hji, hj⟩ := hinside.1 hj
    exact h.locked_of_frame hframe hj (h.stories_ne hi hj hji)
  · exact fun j k hj hk => h.alone j k (hinside.1 hj).2 (hinside.1 hk).2
  · intro j
    rw [h.mem_order]
    by_cases hji : j = i
    · subst hji
      simp [hi]
    · simp [hji]
  · intro key hkey
    by_cases hguards : (stories i).Guards key
    · have hpending := h.pending i hi key hguards
      rwa [hrun] at hpending
    · refine (hframe key hguards).trans (h.settled key fun j hj => ?_)
      by_cases hji : j = i
      · rwa [hji]
      · exact hkey j (hinside.2 ⟨hji, hj⟩)
  · intro j hj key hkey
    obtain ⟨hji, hj⟩ := hinside.1 hj
    simp only [Function.update_of_ne hji]
    exact h.pending_of_frame hframe hj (h.stories_ne hi hj hji) hkey
  · intro before j rest horder
    by_cases hji : j = i
    · subst hji
      have hanswer := h.answers before j rest horder
      rw [hrun] at hanswer
      simp only [Function.update_self]
      exact hanswer
    · simp only [Function.update_of_ne hji]
      exact h.answers_of_frame hframe horder fun hj => h.stories_ne hi hj hji

/-- A client takes a free lock. -/
theorem enter (h : Consistent stories refusal scripts records crowd)
    (hi : crowd.phases i = .outside) {value : String} {next : Bool → Script α}
    (hscript : scripts i = claim (StoreKey.lock (stories i)).text value next)
    (hheld : (next true).Holds (stories i))
    (hfree : crowd.records.get? (StoreKey.lock (stories i)).text = none) :
    Consistent stories refusal scripts records
      { records := crowd.records.insert (StoreKey.lock (stories i)).text value
        scripts := Function.update crowd.scripts i (next true)
        phases := Function.update crowd.phases i .inside
        order := crowd.order ++ [i] } := by
  have hother {j : ι} (hj : crowd.phases j = .inside) : stories j ≠ stories i :=
    fun heq => h.locked j hj (heq ▸ hfree)
  have hnot : i ∉ crowd.order := by
    rw [h.mem_order, hi]
    simp
  have hframe (key : String) (hkey : ¬(stories i).Guards key) :
      (crowd.records.insert (StoreKey.lock (stories i)).text value).get? key =
        crowd.records.get? key := by
    rw [Table.get?_insert, if_neg fun heq => hkey (Or.inl heq.symm)]
  have hinside {j : ι} : Function.update crowd.phases i .inside j = .inside ↔
      j = i ∨ crowd.phases j = .inside := by
    by_cases hji : j = i
    · subst hji
      simp
    · simp [hji]
  obtain ⟨hanswer, hguarded, hothers⟩ := h.serially_of_free hscript hheld hfree
  refine ⟨h.fits_update i hheld, ?_, ?_, ?_, ?_, ?_, ?_, ?_⟩
  · intro j hj
    rcases hinside.1 hj with rfl | hj
    · simp [Table.get?_insert]
    · exact h.locked_of_frame hframe hj (hother hj)
  · intro j k hj hk hstories
    rcases hinside.1 hj with hji | hold <;> rcases hinside.1 hk with hki | hmore
    · rw [hji, hki]
    · exact absurd (hji ▸ hstories).symm (hother hmore)
    · exact absurd (hki ▸ hstories) (hother hold)
    · exact h.alone j k hold hmore hstories
  · exact List.Nodup.append h.nodup (List.nodup_singleton i) (by simpa using hnot)
  · intro j
    rw [List.mem_append, h.mem_order, List.mem_singleton]
    by_cases hji : j = i
    · subst hji
      simp
    · simp [hji]
  · intro key hkey
    have hkeyNot : ¬(stories i).Guards key := hkey i (hinside.2 (Or.inl rfl))
    rw [hframe key hkeyNot, hothers key hkeyNot]
    exact h.settled key fun j hj => hkey j (hinside.2 (Or.inr hj))
  · intro j hj key hkey
    by_cases hji : j = i
    · subst hji
      simp only [Function.update_self]
      exact hguarded key hkey
    · have hj := (hinside.1 hj).resolve_left hji
      simp only [Function.update_of_ne hji]
      rw [hothers key fun hguards => hother hj (hkey.eq hguards)]
      exact h.pending_of_frame hframe hj (hother hj) hkey
  · intro before j rest horder
    -- The client in question comes last, or it was there before.
    rcases List.eq_nil_or_concat rest with rfl | ⟨front, last, rfl⟩
    · obtain ⟨rfl, hlast⟩ := List.append_inj' horder rfl
      obtain rfl := List.singleton_inj.1 hlast
      simp only [Function.update_self]
      exact hanswer
    · rw [List.concat_eq_append, ← List.cons_append, ← List.append_assoc] at horder
      obtain ⟨horder, -⟩ := List.append_inj' horder rfl
      have hmem : j ∈ crowd.order := by simp [horder]
      have hji : j ≠ i := fun heq => hnot (heq ▸ hmem)
      simp only [Function.update_of_ne hji]
      exact h.answers_of_frame hframe horder hother

/-- The next command of any client keeps the crowd consistent. -/
theorem next (h : Consistent stories refusal scripts records crowd)
    (hasks : ∀ i, (scripts i).Asks (stories i) refusal) (i : ι) :
    Consistent stories refusal scripts records (crowd.next i) := by
  have hfits := h.fits i
  cases hi : crowd.phases i with
  | outside =>
    rw [hi] at hfits
    have hbegun : crowd.scripts i = scripts i := hfits
    have hask := hasks i
    generalize hscript : scripts i = script at hask
    cases hask with
    | nothing result => rwa [next_of_done (hbegun.trans hscript)]
    | lock value next hrefused hheld =>
      cases hlock : crowd.records.contains (StoreKey.lock (stories i)).text with
      | true =>
        rw [next_of_locked (hbegun.trans hscript) hlock, hrefused]
        exact h.refuse hi
      | false =>
        rw [next_of_free (hbegun.trans hscript) hlock]
        exact h.enter hi hscript hheld (Table.contains_eq_false.1 hlock)
  | inside =>
    rcases (h.holds hi).cases with ⟨result, hscript⟩ | ⟨key, next, hscript, hheld⟩ |
      ⟨key, value, next, hscript, howns, hheld⟩
    · rw [next_of_remove hscript]
      exact h.leave hi hscript
    · rw [next_of_read hscript]
      refine h.work hi (hheld _) ?_ rfl fun _ _ => rfl
      rw [hscript]
      rfl
    · rw [next_of_write hscript]
      refine h.work hi hheld ?_ ?_ fun other hother => ?_
      · rw [hscript]
        rfl
      · rw [Table.get?_insert, if_neg (howns.ne_lock _)]
      · have hne : key ≠ other := fun heq => hother (Or.inr (heq ▸ howns))
        rw [Table.get?_insert, if_neg hne]
  | left =>
    rw [hi] at hfits
    obtain ⟨result, hresult⟩ := hfits
    rwa [next_of_done hresult]
  | refused =>
    rw [hi] at hfits
    rwa [next_of_done hfits]

/-- Every schedule keeps the crowd consistent. -/
theorem play (h : Consistent stories refusal scripts records crowd)
    (hasks : ∀ i, (scripts i).Asks (stories i) refusal) (schedule : List ι) :
    Consistent stories refusal scripts records (crowd.play schedule) := by
  induction schedule generalizing crowd with
  | nil => exact h
  | cons i rest ih => exact ih (h.next hasks i)

end Consistent

section Refused

variable [DecidableEq ι]

theorem play_append (crowd : Crowd ι α) (schedule rest : List ι) :
    crowd.play (schedule ++ rest) = (crowd.play schedule).play rest := List.foldl_append

/-- Whoever has taken a lock stays in the order. -/
theorem mem_order_play (h : i ∈ crowd.order) (schedule : List ι) :
    i ∈ (crowd.play schedule).order := by
  induction schedule generalizing crowd with
  | nil => exact h
  | cons j rest ih =>
    refine ih ?_
    simp only [next]
    split
    · exact List.mem_append_left _ h
    · exact h

/-- A command of a client that has not taken a lock when it is carried out changes nothing. -/
theorem Consistent.records_next (h : Consistent stories refusal scripts records crowd)
    (hasks : ∀ i, (scripts i).Asks (stories i) refusal) (hnot : i ∉ (crowd.next i).order) :
    (crowd.next i).records = crowd.records := by
  have hbefore : i ∉ crowd.order := fun hmem => hnot (mem_order_play hmem [i])
  rw [h.mem_order, not_or] at hbefore
  have hfits := h.fits i
  cases hi : crowd.phases i with
  | outside =>
    rw [hi] at hfits
    have hbegun : crowd.scripts i = scripts i := hfits
    have hask := hasks i
    generalize hscript : scripts i = script at hask
    cases hask with
    | nothing result => rw [next_of_done (hbegun.trans hscript)]
    | lock value next hrefused hheld =>
      cases hlock : crowd.records.contains (StoreKey.lock (stories i)).text with
      | true => rw [next_of_locked (hbegun.trans hscript) hlock]
      | false =>
        rw [next_of_free (hbegun.trans hscript) hlock] at hnot
        simp at hnot
  | inside => exact absurd hi hbefore.1
  | left => exact absurd hi hbefore.2
  | refused =>
    rw [hi] at hfits
    rw [next_of_done hfits]

/-- A client that is refused changes nothing, whatever it does and whenever it does it. -/
theorem records_of_refused (hasks : ∀ i, (scripts i).Asks (stories i) refusal)
    (front back : List ι)
    (hrefused : ((start scripts records).play (front ++ i :: back)).phases i = .refused) :
    ((start scripts records).play (front ++ [i])).records =
      ((start scripts records).play front).records := by
  have hstart := consistent_start stories refusal scripts records
  have hfront := hstart.play hasks front
  rw [play_append]
  refine hfront.records_next hasks fun hmem => ?_
  have hend := mem_order_play hmem back
  rw [play_append] at hrefused
  rcases (((hfront.next hasks i).play hasks back).mem_order i).1 hend with hinside | hleft
  · exact absurd (hrefused.symm.trans hinside) (by decide)
  · exact absurd (hrefused.symm.trans hleft) (by decide)

end Refused

/-! ## Finished crowds -/

/-- Nobody holds a lock when all clients are through, so all keys are settled. -/
theorem Consistent.of_finished (h : Consistent stories refusal scripts records crowd)
    (hfinished : crowd.Finished) :
    (∀ i, crowd.phases i ≠ .inside) ∧
      (∀ key, crowd.records.get? key = (serially scripts records crowd.order).get? key) ∧
      ∀ before i after, crowd.order = before ++ i :: after →
        crowd.scripts i = done ((scripts i).run (serially scripts records before)).1 := by
  have hinside (i : ι) : crowd.phases i ≠ .inside := by
    intro hi
    obtain ⟨result, hresult⟩ := hfinished i
    exact Script.Holds.not_done (hresult ▸ h.holds hi)
  refine ⟨hinside, fun key => h.settled key fun i hi => absurd hi (hinside i), ?_⟩
  intro before i after horder
  obtain ⟨result, hresult⟩ := hfinished i
  rw [← h.answers before i after horder, hresult]
  rfl

section Finished

variable [DecidableEq ι]

theorem scripts_next (crowd : Crowd ι α) (h : j ≠ i) :
    (crowd.next i).scripts j = crowd.scripts j := Function.update_of_ne h _ _

theorem phases_next (crowd : Crowd ι α) (h : j ≠ i) :
    (crowd.next i).phases j = crowd.phases j := Function.update_of_ne h _ _

/-- A client that is through stays in its phase. -/
theorem phases_play {result : α} (h : crowd.scripts i = done result) (schedule : List ι) :
    (crowd.play schedule).phases i = crowd.phases i := by
  induction schedule generalizing crowd with
  | nil => rfl
  | cons j rest ih =>
    change ((crowd.next j).play rest).phases i = _
    by_cases hij : i = j
    · subst hij
      rw [next_of_done h, ih h]
    · rw [ih ((scripts_next crowd hij).trans h), phases_next crowd hij]

/-- A client can get through on its own, the others staying where they are. -/
def GetsThrough (crowd : Crowd ι α) (i : ι) : Prop := ∃ schedule,
  (∃ result, (crowd.play schedule).scripts i = done result) ∧
    ∀ j, j ≠ i → (crowd.play schedule).scripts j = crowd.scripts j

theorem GetsThrough.of_next (h : (crowd.next i).GetsThrough i) : crowd.GetsThrough i := by
  obtain ⟨schedule, hdone, hothers⟩ := h
  exact ⟨i :: schedule, hdone, fun j hj => (hothers j hj).trans (scripts_next crowd hj)⟩

theorem getsThrough (crowd : Crowd ι α) (i : ι) : crowd.GetsThrough i := by
  generalize hscript : crowd.scripts i = script
  induction script generalizing crowd with
  | done result => exact ⟨[], ⟨result, hscript⟩, fun _ _ => rfl⟩
  | read key next ih =>
    refine .of_next (ih (crowd.records.get? key) _ ?_)
    rw [next_of_read hscript]
    exact Function.update_self ..
  | write key value next ih =>
    refine .of_next (ih _ ?_)
    rw [next_of_write hscript]
    exact Function.update_self ..
  | claim key value next ih =>
    cases hlock : crowd.records.contains key with
    | true =>
      refine .of_next (ih false _ ?_)
      rw [next_of_locked hscript hlock]
      exact Function.update_self ..
    | false =>
      refine .of_next (ih true _ ?_)
      rw [next_of_free hscript hlock]
      exact Function.update_self ..
  | remove key next ih =>
    refine .of_next (ih _ ?_)
    rw [next_of_remove hscript]
    exact Function.update_self ..

/-- Every crowd can be brought to an end. -/
theorem exists_finished [Finite ι] (crowd : Crowd ι α) :
    ∃ schedule, (crowd.play schedule).Finished := by
  obtain ⟨clients, -, hclients⟩ := Finite.exists_univ_list ι
  have hlist (clients : List ι) : ∃ schedule, ∀ i ∈ clients,
      ∃ result, (crowd.play schedule).scripts i = done result := by
    induction clients with
    | nil => exact ⟨[], by simp⟩
    | cons i rest ih =>
      obtain ⟨schedule, hrest⟩ := ih
      obtain ⟨more, hdone, hothers⟩ := (crowd.play schedule).getsThrough i
      refine ⟨schedule ++ more, fun j hj => ?_⟩
      rw [play_append]
      by_cases hji : j = i
      · rwa [hji]
      · rw [hothers j hji]
        exact hrest j ((List.mem_cons.1 hj).resolve_left hji)
  obtain ⟨schedule, hschedule⟩ := hlist clients
  exact ⟨schedule, fun i => hschedule i (hclients i)⟩

end Finished

end Crowd

/-- A client of the service: a command on a story, with all that the command is carried out with. -/
structure Client where
  /-- The story. -/
  id : Identifier
  /-- The command. -/
  command : Command
  /-- The assets of the service. -/
  assets : Option Assets
  /-- The clock. -/
  now : Instant

namespace Client

/-- The single commands to the store that the client carries out, and its answer. -/
def script (client : Client) : Script (Except Failure Reply) :=
  ExceptT.run (client.command.perform client.assets client.now client.id.spelling)

end Client

/-- Clients that are served at the same time, however their commands to the store get mixed up.  At
any time nobody but one client is inside the lock of a story; the clients that are refused are told
so and change nothing; and when all are through, the store and the answers are those of the clients
that have taken a lock one after the other. -/
theorem served_in_order {ι : Type} [DecidableEq ι] (clients : ι → Client) (records : Records)
    (schedule : List ι) :
    let scripts := fun i => (clients i).script
    let crowd := Crowd.start scripts records
    let final := crowd.play schedule
    (∀ i j, final.phases i = .inside → final.phases j = .inside →
      (clients i).id = (clients j).id → i = j) ∧
    (∀ i, final.phases i = .refused →
      final.scripts i = done (.error .storyBusy) ∧
      ∀ front back, schedule = front ++ i :: back →
        (crowd.play (front ++ [i])).records = (crowd.play front).records) ∧
    (final.Finished →
      final.order.Nodup ∧
      (∀ i, i ∈ final.order ∨ final.phases i = .refused ∨
        ∃ answer, scripts i = done answer ∧ final.scripts i = done answer) ∧
      (∀ key, final.records.get? key = (Crowd.serially scripts records final.order).get? key) ∧
      ∀ before i after, final.order = before ++ i :: after → final.scripts i =
        done ((scripts i).run (Crowd.serially scripts records before)).1) := by
  intro scripts crowd final
  have hasks (i : ι) : (scripts i).Asks (clients i).id (.error .storyBusy) :=
    (clients i).command.asks_perform (clients i).assets (clients i).now (clients i).id
  have h := (Crowd.consistent_start (fun i => (clients i).id) (.error .storyBusy) scripts
    records).play hasks schedule
  refine ⟨h.alone, fun i hi => ⟨?_, ?_⟩, fun hfinished => ?_⟩
  · have hfits := h.fits i
    rwa [hi] at hfits
  · rintro front back rfl
    exact Crowd.records_of_refused hasks front back hi
  · obtain ⟨hinside, hrecords, hanswers⟩ := h.of_finished hfinished
    refine ⟨h.nodup, fun i => ?_, hrecords, hanswers⟩
    have hfits := h.fits i
    rw [h.mem_order]
    cases hi : final.phases i with
    | inside => exact absurd hi (hinside i)
    | left => exact Or.inl (Or.inr rfl)
    | refused => exact Or.inr (Or.inl rfl)
    | outside =>
      rw [hi] at hfits
      obtain ⟨answer, hanswer⟩ := hfinished i
      exact Or.inr (Or.inr ⟨answer, hfits.symm.trans hanswer, hanswer⟩)

/-- Two clients that want to add a node to a new story. -/
def bothCreate (_ : Bool) : Client := ⟨⟨1⟩, .createNode, none, ⟨0.0⟩⟩

/-- Its first command asks for the lock. -/
theorem script_bothCreate : ∃ value next,
    (∀ i, (bothCreate i).script = claim (StoreKey.lock ⟨1⟩).text value next) ∧
      next false = done (.error .storyBusy) := by
  have hasks : (bothCreate false).script.Asks ⟨1⟩ (.error .storyBusy) :=
    Command.createNode.asks_perform none ⟨0.0⟩ ⟨1⟩
  generalize hscript : (bothCreate false).script = script at hasks
  cases hasks with
  | nothing result => exact nomatch hscript
  | lock value next hrefused hheld => exact ⟨value, next, fun _ => hscript, hrefused⟩

/-- If the second client gets in between, it is refused, and in the end the store is what the first
client makes of it. -/
theorem served_in_order_newStory :
    ∃ schedule, ∃ final, final = (Crowd.start (fun i => (bothCreate i).script) newStory).play
        (false :: true :: schedule) ∧
      final.Finished ∧ final.phases true = .refused ∧ final.order = [false] ∧
      ∀ key, final.records.get? key = ((bothCreate false).script.run newStory).2.get? key := by
  obtain ⟨value, next, hscript, hrefused⟩ := script_bothCreate
  generalize hcrowd : Crowd.start (fun i => (bothCreate i).script) newStory = crowd
  have hfree : crowd.records.contains (StoreKey.lock ⟨1⟩).text = false := by
    rw [← hcrowd]
    exact Bool.eq_false_iff.2 (reachable_newStory.not_held ⟨1⟩)
  have hscripts (i : Bool) : crowd.scripts i = claim (StoreKey.lock ⟨1⟩).text value next := by
    rw [← hcrowd]
    exact hscript i
  have hfirst := Crowd.next_of_free (hscripts false) hfree
  have hscriptTrue : (crowd.next false).scripts true =
      claim (StoreKey.lock ⟨1⟩).text value next :=
    (Crowd.scripts_next crowd (by decide)).trans (hscripts true)
  have hlocked : (crowd.next false).records.contains (StoreKey.lock ⟨1⟩).text := by
    rw [hfirst]
    simp [Table.contains, Table.get?_insert]
  have hsecond := Crowd.next_of_locked hscriptTrue hlocked
  obtain ⟨schedule, hfinished⟩ := Crowd.exists_finished ((crowd.next false).next true)
  have hdone : ((crowd.next false).next true).scripts true = done (.error .storyBusy) := by
    rw [hsecond]
    simpa using hrefused
  have hphase : (crowd.play (false :: true :: schedule)).phases true = .refused := by
    refine (Crowd.phases_play hdone schedule).trans ?_
    rw [hsecond]
    simp
  have hentered : false ∈ ((crowd.next false).next true).order := by
    rw [hsecond, hfirst]
    simp
  have hmem : false ∈ (crowd.play (false :: true :: schedule)).order :=
    Crowd.mem_order_play hentered schedule
  have hasks (i : Bool) : (bothCreate i).script.Asks ⟨1⟩ (.error .storyBusy) :=
    Command.createNode.asks_perform none ⟨0.0⟩ ⟨1⟩
  have h := (Crowd.consistent_start (fun _ => ⟨1⟩) (.error .storyBusy)
    (fun i => (bothCreate i).script) newStory).play hasks (false :: true :: schedule)
  obtain ⟨-, -, hserved⟩ := served_in_order bothCreate newStory (false :: true :: schedule)
  rw [hcrowd] at h hserved
  obtain ⟨hnodup, -, hrecords, -⟩ := hserved hfinished
  have horder : (crowd.play (false :: true :: schedule)).order = [false] := by
    refine List.perm_singleton.1 ((List.perm_ext_iff_of_nodup hnodup (List.nodup_singleton _)).2 ?_)
    intro i
    cases i with
    | false => simpa using hmem
    | true => simp [h.mem_order, hphase]
  rw [horder, Crowd.serially, List.foldl_cons, List.foldl_nil] at hrecords
  exact ⟨schedule, _, rfl, hfinished, hphase, horder, hrecords⟩

end Narrative
