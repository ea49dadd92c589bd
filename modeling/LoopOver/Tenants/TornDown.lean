import LoopOver.Tenants.Routing
import LoopOver.Tenants.Wake

/-!
# Torn down is for good

A tenant that was torn down stays so and is not woken, unless a tick has listed the tenants before
the delete request was answered: the tick writes the record back as it was, and starts the
container.

* `Fleet.Kept` is what the steps keep, as long as the ticks are `Current`.
* `Fleet.Unclaimed` is what they keep, as long as the ticks put no due time back (`Forward`).
* **`torn_down_stays_iff`** has the two laws for all runs, and `torn_down_comes_back` is a run that
  breaks the first.
-/

namespace LoopOver.Tenants

open Runs (AllSteps run)
open List

/-! ## The laws -/

section Laws

variable (toISOString : ℤ → String) (dateParse : String → Option ℤ) (fleet : Fleet)

/-- The tenant that a tick has at hand. -/
def Fleet.atHand (id : ℕ) : Option DueRecord := (fleet.ticks id).todo.head?

/-- The tenants whose delete requests were answered are torn down. -/
def Fleet.StaysDown : Prop := ∀ key, fleet.deleted key = true →
  ∃ record, recordAt fleet.kv key = some record ∧ record.state = .tornDown

/-- A tenant that was torn down is not woken. -/
def NotWoken : WakeAction → Prop
  | .start id _ => ∀ due ∈ fleet.atHand id, fleet.deleted due.record.key = false
  | _ => True

/-- The first law, for a step. -/
def StaysTornDown (action : WakeAction) : Prop :=
  NotWoken fleet action ∧ ∀ after, fleet.step toISOString dateParse action = some after →
    after.StaysDown

/-- A tick does not wake a tenant for a due time that was claimed when it listed the tenants. -/
def OncePerSlot : WakeAction → Prop
  | .start id _ =>
    ∀ due ∈ fleet.atHand id, due.schedule.nextDueAt ∉ (fleet.ticks id).seen due.record.key
  | _ => True

/-- What is listed is in the registry. -/
def Listed : WakeAction → Prop
  | .list _ _ _ records => ∀ record ∈ records, recordAt fleet.kv record.key = some record
  | _ => True

/-- The tick has not listed the tenant before its delete request was answered, or the tenant was
created again. -/
def Fleet.UpToDate (id : ℕ) : Prop := ∀ due ∈ fleet.atHand id,
  (fleet.ticks id).outdated due.record.key = true → fleet.deleted due.record.key = false

/-- The ticks that start a container or change the registry are up to date. -/
def Current : WakeAction → Prop
  | .start id _ => fleet.UpToDate id
  | .write id _ landing => landing.lands = true → fleet.UpToDate id
  | _ => True

/-- A write of a tick does not put a due time back that was claimed already. -/
def Forward : WakeAction → Prop
  | .write id _ landing => landing.lands = true → ∀ due ∈ fleet.atHand id,
      let next := claimedNextDueAt toISOString (fleet.ticks id).startedAt due.schedule
      next ∉ fleet.claimed due.record.key ∧
        ((fleet.ticks id).phase = .claiming → next ≠ due.schedule.nextDueAt)
  | _ => True

instance : DecidablePred (NotWoken fleet)
  | .start id _ =>
    inferInstanceAs (Decidable (∀ due ∈ fleet.atHand id, fleet.deleted due.record.key = false))
  | .list .. | .write .. | .poll .. | .readForDelete .. | .delete .. | .create _ =>
    inferInstanceAs (Decidable True)

instance : DecidablePred (OncePerSlot fleet)
  | .start id _ => inferInstanceAs (Decidable (∀ due ∈ fleet.atHand id, due.schedule.nextDueAt ∉ _))
  | .list .. | .write .. | .poll .. | .readForDelete .. | .delete .. | .create _ =>
    inferInstanceAs (Decidable True)

instance : DecidablePred (Listed fleet)
  | .list _ _ _ records =>
    inferInstanceAs (Decidable (∀ record ∈ records, recordAt fleet.kv record.key = some record))
  | .write .. | .start .. | .poll .. | .readForDelete .. | .delete .. | .create _ =>
    inferInstanceAs (Decidable True)

instance (id : ℕ) : Decidable (fleet.UpToDate id) :=
  inferInstanceAs (Decidable (∀ due ∈ fleet.atHand id, _ → _))

instance : DecidablePred (Current fleet)
  | .start id _ => inferInstanceAs (Decidable (fleet.UpToDate id))
  | .write id _ landing => inferInstanceAs (Decidable (landing.lands = true → fleet.UpToDate id))
  | .list .. | .poll .. | .readForDelete .. | .delete .. | .create _ =>
    inferInstanceAs (Decidable True)

instance : DecidablePred (Forward toISOString fleet)
  | .write id _ landing =>
    inferInstanceAs (Decidable (landing.lands = true → ∀ due ∈ fleet.atHand id, _ ∧ (_ → _)))
  | .list .. | .start .. | .poll .. | .readForDelete .. | .delete .. | .create _ =>
    inferInstanceAs (Decidable True)

/-- Nothing is under way, and nothing has been claimed or deleted. -/
structure Fleet.Fresh : Prop where
  keyed : Keyed fleet.kv
  todo : ∀ id, (fleet.ticks id).todo = []
  deleted : ∀ key, fleet.deleted key = false
  claimed : ∀ key, fleet.claimed key = []

end Laws

/-! ## Steps -/

section Steps

variable {toISOString : ℤ → String} {dateParse : String → Option ℤ} {fleet after : Fleet}
  {tick : Tick}
  {record written : TenantRegistryRecord} {due : DueRecord} {landing : Landing} {id : ℕ} {now : ℤ}

theorem dueRecord_record {now : ℤ} (h : dueRecord dateParse now record = some due) :
    due.record = record := by
  unfold dueRecord at h
  split at h
  · cases h
  · split_ifs at h
    rw [← Option.some.inj h]

theorem mem_of_mem_dueRecords {startedAt : ℤ} {count : ℕ} {records : List TenantRegistryRecord}
    (h : due ∈ dueRecords dateParse startedAt count records) : due.record ∈ records := by
  have hfound := mem_of_mem_take ((takeWhile_sublist _).subset h)
  obtain ⟨record, hrecord, hdue⟩ := mem_filterMap.1 hfound
  rwa [dueRecord_record hdue]

/-- A tick writes the record that it has listed, with a new schedule. -/
theorem Tick.written_eq (h : tick.written toISOString due now = some written) :
    written.key = due.record.key ∧ written.state = .active ∧
      ∀ schedule, written.amsSchedule = some schedule →
      schedule.nextDueAt = claimedNextDueAt toISOString tick.startedAt due.schedule := by
  unfold Tick.written at h
  obtain ⟨schedule, hschedule, rfl⟩ := Option.map_eq_some_iff.1 h
  refine ⟨rfl, due.active, fun found hfound => ?_⟩
  obtain rfl := Option.some.inj hfound
  cases hphase : tick.phase <;> rw [hphase] at hschedule <;> simp at hschedule <;> rw [← hschedule]

theorem keyed_put (h : Keyed fleet.kv) : Keyed (fleet.put record landing).kv := by
  unfold Fleet.put
  split_ifs
  · exact h.upsert
  · exact h

variable {key : String}

theorem recordAt_put (h : Keyed fleet.kv) : recordAt (fleet.put record landing).kv key =
    if landing.lands = true ∧ key = record.key then some record else recordAt fleet.kv key := by
  unfold Fleet.put
  cases landing <;> simp [Landing.lands, recordAt_upsert h]

@[simp] theorem put_ticks : (fleet.put record landing).ticks = fleet.ticks := by
  unfold Fleet.put
  split_ifs <;> rfl

@[simp] theorem put_deleted : (fleet.put record landing).deleted = fleet.deleted := by
  unfold Fleet.put
  split_ifs <;> rfl

@[simp] theorem put_claimed : (fleet.put record landing).claimed = fleet.claimed := by
  unfold Fleet.put
  split_ifs <;> rfl

variable {phase : WakePhase}

@[simp] theorem noteClaim_kv : (fleet.noteClaim due phase landing).kv = fleet.kv := by
  unfold Fleet.noteClaim
  split_ifs <;> rfl

@[simp] theorem noteClaim_ticks : (fleet.noteClaim due phase landing).ticks = fleet.ticks := by
  unfold Fleet.noteClaim
  split_ifs <;> rfl

@[simp] theorem noteClaim_deleted :
    (fleet.noteClaim due phase landing).deleted = fleet.deleted := by
  unfold Fleet.noteClaim
  split_ifs <;> rfl

/-- What a tick has in mind of the tenants that it has still to wake. -/
structure Tick.Leads (tick tick' : Tick) : Prop where
  todo : ∀ due ∈ tick'.todo, due ∈ tick.todo
  outdated : tick'.outdated = tick.outdated
  seen : tick'.seen = tick.seen

theorem Tick.leads_next (tick : Tick) : tick.Leads tick.next :=
  ⟨fun _ => mem_of_mem_tail, rfl, rfl⟩

theorem Tick.leads_phase (tick : Tick) (phase : WakePhase) : tick.Leads { tick with phase :=
  phase } :=
  ⟨fun _ => id, rfl, rfl⟩

theorem Tick.leads_afterWrite (tick : Tick) (landing : Landing) :
    tick.Leads (tick.afterWrite landing) := by
  unfold Tick.afterWrite
  split
  · exact tick.leads_phase _
  · exact tick.leads_next
  · exact tick.leads_next
  · exact tick.leads_phase _

theorem Tick.leads_afterPoll (tick : Tick) (reply : PollReply) :
    tick.Leads (tick.afterPoll reply) := by
  cases reply with
  | stopped exitCode => exact tick.leads_phase _
  | waiting => exact tick.leads_phase _
  | timedOut => exact tick.leads_phase _
  | failed => exact tick.leads_phase _

/-- What a step does: a tick lists, a tick goes on without a write or with one, a delete request
reads, fails, writes or is answered, or a create request writes. -/
inductive Fleet.Does (toISOString : ℤ → String) (dateParse : String → Option ℤ) (fleet : Fleet) :
    WakeAction → Fleet → Prop
  | list (id : ℕ) (startedAt : ℤ) (count : ℕ) (records : List TenantRegistryRecord)
      (hidle : (fleet.ticks id).todo = []) : fleet.Does toISOString dateParse
        (.list id startedAt count records)
        (fleet.setTick id ⟨startedAt, dueRecords dateParse startedAt count records, .claiming,
          fun _ => false,
          fleet.claimed⟩)
  | write (id : ℕ) (now : ℤ) (landing : Landing) (due : DueRecord) (record : TenantRegistryRecord)
      (hhand : due ∈ fleet.atHand id) (hwritten : (fleet.ticks id).written toISOString due now =
        some record) :
      fleet.Does toISOString dateParse (.write id now landing)
        (((fleet.put record landing).noteClaim due (fleet.ticks id).phase landing).setTick id
          ((fleet.ticks id).afterWrite landing))
  | goOn (id : ℕ) (action : WakeAction) (tick : Tick) (hleads : (fleet.ticks id).Leads tick)
      (haction : (∃ ok, action = .start id ok) ∨ ∃ reply, action = .poll id reply) :
      fleet.Does toISOString dateParse action (fleet.setTick id tick)
  | read (request : ℕ) (name product : String) (deletes : ℕ → Option TenantRegistryRecord) :
      fleet.Does toISOString dateParse (.readForDelete request name product)
        { fleet with deletes := deletes }
  | delete (request : ℕ) (driver : DriverReplies) (now : String) (landing : Landing)
      (deletes : ℕ → Option TenantRegistryRecord) (record : TenantRegistryRecord)
      (hdown : record.state = .tornDown) : fleet.Does toISOString dateParse
        (.delete request driver now landing)
        (if landing = .written then
          (({ fleet with deletes := deletes } : Fleet).put record landing).answerDelete record.key
         else ({ fleet with deletes := deletes } : Fleet).put record landing)
  | refuse (request : ℕ) (driver : DriverReplies) (now : String) (landing : Landing)
      (deletes : ℕ → Option TenantRegistryRecord) :
      fleet.Does toISOString dateParse (.delete request driver now landing)
        { fleet with deletes := deletes }
  | create (record : TenantRegistryRecord) : fleet.Does toISOString dateParse (.create record)
        { fleet with
          kv := upsert fleet.kv record
          deleted := Function.update fleet.deleted record.key false
          claimed := Function.update fleet.claimed record.key [] }

variable {action : WakeAction}

theorem Fleet.does_of_step (h : fleet.step toISOString dateParse action = some after) :
    fleet.Does toISOString dateParse action after := by
  cases action with
  | list id startedAt count records =>
    simp only [Fleet.step] at h
    split at h
    · cases h
    · next hidle =>
      obtain rfl := Option.some.inj h
      exact .list id startedAt count records hidle
  | write id now landing =>
    simp only [Fleet.step] at h
    split at h
    · cases h
    · next due rest htodo =>
      obtain ⟨record, hwritten, rfl⟩ := Option.map_eq_some_iff.1 h
      refine .write id now landing due record ?_ hwritten
      rw [Fleet.atHand, htodo]
      rfl
  | start id ok =>
    simp only [Fleet.step] at h
    split at h
    · obtain rfl := Option.some.inj h
      exact .goOn id _ _ ((fleet.ticks id).leads_phase _) (Or.inl ⟨ok, rfl⟩)
    · cases h
  | poll id reply =>
    simp only [Fleet.step] at h
    split at h
    · obtain rfl := Option.some.inj h
      exact .goOn id _ _ ((fleet.ticks id).leads_afterPoll reply) (Or.inr ⟨reply, rfl⟩)
    · cases h
  | readForDelete request name product =>
    simp only [Fleet.step] at h
    split at h
    · obtain rfl := Option.some.inj h
      exact .read request name product fleet.deletes
    · split_ifs at h
      · obtain rfl := Option.some.inj h
        exact .read request name product fleet.deletes
      · obtain rfl := Option.some.inj h
        exact .read request name product _
  | delete request driver now landing =>
    simp only [Fleet.step] at h
    split at h
    · cases h
    · split at h
      · obtain rfl := Option.some.inj h
        exact .refuse request driver now landing _
      · obtain rfl := Option.some.inj h
        exact .delete request driver now landing _ _ rfl
  | create record =>
    obtain rfl := Option.some.inj h
    exact .create record

/-! ## What the steps keep -/

/-- The tenants whose delete requests were answered are torn down, and the ticks that have one to
wake have listed it before. -/
structure Fleet.Kept (fleet : Fleet) : Prop where
  keyed : Keyed fleet.kv
  down : fleet.StaysDown
  outdated : ∀ id, ∀ due ∈ (fleet.ticks id).todo, fleet.deleted due.record.key = true →
    (fleet.ticks id).outdated due.record.key = true

/-- Nothing is known of a tick but that it leads on. -/
theorem Fleet.Kept.outdated_setTick (h : fleet.Kept) (hleads : (fleet.ticks id).Leads tick)
    (other : ℕ) :
    ∀ due ∈ (Function.update fleet.ticks id tick other).todo, fleet.deleted due.record.key = true →
      (Function.update fleet.ticks id tick other).outdated due.record.key = true := by
  intro due hdue hdeleted
  by_cases hother : other = id
  · subst hother
    rw [Function.update_self] at hdue ⊢
    rw [hleads.outdated]
    exact h.outdated other due (hleads.todo due hdue) hdeleted
  · rw [Function.update_of_ne hother] at hdue ⊢
    exact h.outdated other due hdue hdeleted

/-- Where an active record lies, no delete request was answered. -/
theorem Fleet.Kept.not_deleted (h : fleet.Kept) (hrecord : recordAt fleet.kv key = some record)
    (hactive : record.state = .active) : fleet.deleted key = false := by
  by_contra hdeleted
  obtain ⟨found, hfound, hdown⟩ := h.down key (by simpa using hdeleted)
  obtain rfl := Option.some.inj (hrecord.symm.trans hfound)
  rw [hactive] at hdown
  cases hdown

theorem mem_of_atHand (h : due ∈ fleet.atHand id) : due ∈ (fleet.ticks id).todo :=
  mem_of_mem_head? h

/-- The tick that changes something for a tenant listed it after the last answer to a delete
request. -/
theorem Fleet.Kept.deleted_eq_false (h : fleet.Kept) (hcurrent : fleet.UpToDate id)
    (hhand : due ∈ fleet.atHand id) :
    fleet.deleted due.record.key = false := by
  by_contra hdeleted
  have houtdated := h.outdated id due (mem_of_atHand hhand) (by simpa using hdeleted)
  exact hdeleted (hcurrent due hhand houtdated)

theorem Fleet.Kept.step (h : fleet.Kept) (hlisted : Listed fleet action)
    (hcurrent : Current fleet action)
    (hstep : fleet.step toISOString dateParse action = some after) :
    after.Kept := by
  cases Fleet.does_of_step hstep with
  | list id startedAt count records hidle =>
    refine ⟨h.keyed, h.down, fun other due hdue hdeleted => ?_⟩
    simp only [Fleet.setTick] at hdue hdeleted ⊢
    by_cases hother : other = id
    · subst hother
      rw [Function.update_self] at hdue
      have hrecord := hlisted due.record (mem_of_mem_dueRecords hdue)
      rw [h.not_deleted hrecord due.active] at hdeleted
      cases hdeleted
    · rw [Function.update_of_ne hother] at hdue ⊢
      exact h.outdated other due hdue hdeleted
  | write id now landing due record hhand hwritten =>
    have hleads := (fleet.ticks id).leads_afterWrite landing
    refine ⟨?_, fun key hdeleted => ?_, fun other other' hother hdeleted => ?_⟩
    · simp only [Fleet.setTick, noteClaim_kv]
      exact keyed_put h.keyed
    · simp only [Fleet.setTick, noteClaim_deleted, put_deleted, noteClaim_kv] at hdeleted ⊢
      obtain ⟨found, hfound, hdown⟩ := h.down key hdeleted
      refine ⟨found, ?_, hdown⟩
      rw [recordAt_put h.keyed, if_neg, hfound]
      rintro ⟨hlands, rfl⟩
      rw [(Tick.written_eq hwritten).1, h.deleted_eq_false (hcurrent hlands) hhand] at hdeleted
      cases hdeleted
    · simp only [Fleet.setTick, noteClaim_ticks, put_ticks, noteClaim_deleted,
        put_deleted] at hother hdeleted ⊢
      exact h.outdated_setTick hleads other other' hother hdeleted
  | goOn id _ tick hleads haction =>
    exact ⟨h.keyed, h.down, fun other => h.outdated_setTick hleads other⟩
  | read request name product deletes => exact ⟨h.keyed, h.down, h.outdated⟩
  | refuse request driver now landing deletes => exact ⟨h.keyed, h.down, h.outdated⟩
  | delete request driver now landing deletes record hdown =>
    have hkeyed : Keyed ({ fleet with deletes := deletes } : Fleet).kv := h.keyed
    have hput : ∀ key, fleet.deleted key = true ∨ (landing = .written ∧ key = record.key) →
        ∃ found, recordAt (({ fleet with deletes := deletes } : Fleet).put record landing).kv key =
          some found ∧
          found.state = .tornDown := by
      intro key hkey
      rw [recordAt_put hkeyed]
      split_ifs with hlands
      · exact ⟨record, rfl, hdown⟩
      · rcases hkey with hdeleted | ⟨rfl, rfl⟩
        · exact h.down key hdeleted
        · exact absurd ⟨rfl, rfl⟩ hlands
    split_ifs with hwritten
    · refine ⟨keyed_put h.keyed, fun key hdeleted => ?_, fun other due hdue hdeleted => ?_⟩
      · simp only [Fleet.answerDelete, put_deleted] at hdeleted ⊢
        by_cases hkey : key = record.key
        · exact hput key (Or.inr ⟨hwritten, hkey⟩)
        · rw [Function.update_of_ne hkey] at hdeleted
          exact hput key (Or.inl hdeleted)
      · simp only [Fleet.answerDelete, put_deleted, put_ticks, Tick.mark] at hdue hdeleted ⊢
        by_cases hkey : due.record.key = record.key
        · rw [hkey, Function.update_self]
        · rw [Function.update_of_ne hkey] at hdeleted ⊢
          exact h.outdated other due hdue hdeleted
    · refine ⟨keyed_put h.keyed, fun key hdeleted => ?_, fun other due hdue hdeleted => ?_⟩
      · rw [put_deleted] at hdeleted
        exact hput key (Or.inl hdeleted)
      · rw [put_deleted] at hdeleted
        rw [put_ticks] at hdue ⊢
        exact h.outdated other due hdue hdeleted
  | create record =>
    have hdeleted_of : ∀ key, Function.update fleet.deleted record.key false key = true →
        key ≠ record.key ∧ fleet.deleted key = true := by
      intro key hdeleted
      by_cases hkey : key = record.key
      · rw [hkey, Function.update_self] at hdeleted
        cases hdeleted
      · rw [Function.update_of_ne hkey] at hdeleted
        exact ⟨hkey, hdeleted⟩
    refine ⟨h.keyed.upsert, fun key hdeleted => ?_, fun other due hdue hdeleted => ?_⟩
    · obtain ⟨hkey, hdeleted⟩ := hdeleted_of key hdeleted
      obtain ⟨found, hfound, hdown⟩ := h.down key hdeleted
      refine ⟨found, ?_, hdown⟩
      rw [recordAt_upsert h.keyed, if_neg hkey, hfound]
    · exact h.outdated other due hdue (hdeleted_of _ hdeleted).2

/-- An active record is put where a tenant was torn down. -/
theorem Fleet.Kept.current (h : fleet.Kept)
    (hstep : (fleet.step toISOString dateParse action).isSome)
    (hlaw : StaysTornDown toISOString dateParse fleet action) : Current fleet action := by
  cases action with
  | start id ok => exact fun due hhand _ => hlaw.1 due hhand
  | write id now landing =>
    intro hlands due hhand _
    obtain ⟨after, hafter⟩ := Option.isSome_iff_exists.1 hstep
    have hdown := hlaw.2 after hafter
    cases Fleet.does_of_step hafter with
    | write _ _ _ found record hfound hwritten =>
      obtain rfl := Option.mem_unique hfound hhand
      by_contra hdeleted
      obtain ⟨hkey, hactive, -⟩ := Tick.written_eq hwritten
      obtain ⟨stored, hstored, hstate⟩ :=
        hdown found.record.key (by simpa [Fleet.setTick] using hdeleted)
      simp only [Fleet.setTick, noteClaim_kv] at hstored
      rw [recordAt_put h.keyed, if_pos ⟨hlands, hkey.symm⟩] at hstored
      obtain rfl := Option.some.inj hstored
      rw [hactive] at hstate
      cases hstate
    | goOn _ _ tick hleads haction => rcases haction with ⟨_, h⟩ | ⟨_, h⟩ <;> cases h
  | list id startedAt count records => trivial
  | poll id reply => trivial
  | readForDelete request name product => trivial
  | delete request driver now landing => trivial
  | create record => trivial

/-! ### Due times -/

/-- A due time that is stored for an active tenant has not been claimed, and one that a tick has in
mind had not been when the tick listed it. -/
structure Fleet.Unclaimed (fleet : Fleet) : Prop where
  keyed : Keyed fleet.kv
  stored : ∀ key record schedule, recordAt fleet.kv key = some record → record.state = .active →
    record.amsSchedule = some schedule → schedule.nextDueAt ∉ fleet.claimed key
  seen : ∀ id, ∀ due ∈ (fleet.ticks id).todo,
    due.schedule.nextDueAt ∉ (fleet.ticks id).seen due.record.key

theorem Fleet.Unclaimed.seen_setTick (h : fleet.Unclaimed) (hleads : (fleet.ticks id).Leads tick)
    (other : ℕ) :
    ∀ due ∈ (Function.update fleet.ticks id tick other).todo,
      due.schedule.nextDueAt ∉ (Function.update fleet.ticks id tick other).seen due.record.key := by
  intro due hdue
  by_cases hother : other = id
  · subst hother
    rw [Function.update_self] at hdue ⊢
    rw [hleads.seen]
    exact h.seen other due (hleads.todo due hdue)
  · rw [Function.update_of_ne hother] at hdue ⊢
    exact h.seen other due hdue

/-- A claim is noted for the tenant that it is for. -/
theorem noteClaim_claimed : (fleet.noteClaim due phase landing).claimed key =
    if (phase = .claiming ∧ landing.lands = true) ∧ key = due.record.key then
      due.schedule.nextDueAt :: fleet.claimed key
    else fleet.claimed key := by
  unfold Fleet.noteClaim
  split_ifs with hclaim hkey hkey
  · simp [hkey.2]
  · simp [Function.update_of_ne (fun heq => hkey ⟨hclaim, heq⟩)]
  · exact absurd hkey.1 hclaim
  · rfl

theorem Fleet.Unclaimed.step (h : fleet.Unclaimed) (hlisted : Listed fleet action)
    (hforward : Forward toISOString fleet action)
    (hstep : fleet.step toISOString dateParse action = some after) :
    after.Unclaimed := by
  cases Fleet.does_of_step hstep with
  | list id startedAt count records hidle =>
    refine ⟨h.keyed, h.stored, fun other due hdue => ?_⟩
    simp only [Fleet.setTick] at hdue ⊢
    by_cases hother : other = id
    · subst hother
      rw [Function.update_self] at hdue ⊢
      have hrecord := hlisted due.record (mem_of_mem_dueRecords hdue)
      exact h.stored _ _ _ hrecord due.active due.scheduled
    · rw [Function.update_of_ne hother] at hdue ⊢
      exact h.seen other due hdue
  | write id now landing due record hhand hwritten =>
    have hleads := (fleet.ticks id).leads_afterWrite landing
    obtain ⟨hkey, -, hnext⟩ := Tick.written_eq hwritten
    refine ⟨?_, fun key found schedule hfound hactive hschedule => ?_,
      fun other other' hother => ?_⟩
    · simp only [Fleet.setTick, noteClaim_kv]
      exact keyed_put h.keyed
    · simp only [Fleet.setTick, noteClaim_kv, recordAt_put h.keyed] at hfound
      simp only [Fleet.setTick, noteClaim_claimed, put_claimed]
      by_cases hput : landing.lands = true ∧ key = record.key
      · rw [if_pos hput] at hfound
        obtain rfl := Option.some.inj hfound
        obtain ⟨hunclaimed, hmoves⟩ := hforward hput.1 due hhand
        rw [hnext schedule hschedule, hput.2, hkey]
        split_ifs with hclaim
        · rw [mem_cons, not_or]
          exact ⟨hmoves hclaim.1.1, hunclaimed⟩
        · exact hunclaimed
      · rw [if_neg hput] at hfound
        have hnot : ¬(((fleet.ticks id).phase = .claiming ∧ landing.lands = true) ∧
            key = due.record.key) := by
          rintro ⟨⟨-, hlands⟩, rfl⟩
          exact hput ⟨hlands, hkey.symm⟩
        rw [if_neg hnot]
        exact h.stored key found schedule hfound hactive hschedule
    · simp only [Fleet.setTick, noteClaim_ticks, put_ticks] at hother ⊢
      exact h.seen_setTick hleads other other' hother
  | goOn id _ tick hleads haction =>
    exact ⟨h.keyed, h.stored, fun other => h.seen_setTick hleads other⟩
  | read request name product deletes => exact ⟨h.keyed, h.stored, h.seen⟩
  | refuse request driver now landing deletes => exact ⟨h.keyed, h.stored, h.seen⟩
  | delete request driver now landing deletes record hdown =>
    have hkeyed : Keyed ({ fleet with deletes := deletes } : Fleet).kv := h.keyed
    have hput : ∀ key found schedule,
        recordAt (({ fleet with deletes := deletes } : Fleet).put record landing).kv key =
          some found →
        found.state = .active → found.amsSchedule = some schedule →
          schedule.nextDueAt ∉ fleet.claimed key := by
      intro key found schedule hfound hactive
      rw [recordAt_put hkeyed] at hfound
      split_ifs at hfound
      · obtain rfl := Option.some.inj hfound
        rw [hdown] at hactive
        cases hactive
      · exact h.stored key found schedule hfound hactive
    split_ifs
    · refine ⟨keyed_put h.keyed, fun key found schedule hfound => ?_, fun other due hdue => ?_⟩
      · simp only [Fleet.answerDelete, put_claimed]
        exact hput key found schedule hfound
      · simp only [Fleet.answerDelete, put_ticks, Tick.mark] at hdue ⊢
        exact h.seen other due hdue
    · refine ⟨keyed_put h.keyed, fun key found schedule hfound => ?_, fun other due hdue => ?_⟩
      · rw [put_claimed]
        exact hput key found schedule hfound
      · rw [put_ticks] at hdue ⊢
        exact h.seen other due hdue
  | create record =>
    refine ⟨h.keyed.upsert, fun key found schedule hfound hactive hschedule => ?_, h.seen⟩
    rw [recordAt_upsert h.keyed] at hfound
    by_cases hkey : key = record.key
    · change schedule.nextDueAt ∉ Function.update fleet.claimed record.key [] key
      rw [hkey, Function.update_self]
      exact not_mem_nil
    · rw [if_neg hkey] at hfound
      change schedule.nextDueAt ∉ Function.update fleet.claimed record.key [] key
      rw [Function.update_of_ne hkey]
      exact h.stored key found schedule hfound hactive hschedule

end Steps

/-! ## Runs -/

theorem Fleet.Fresh.kept {fleet : Fleet} (h : fleet.Fresh) : fleet.Kept := by
  refine ⟨h.keyed, fun key hdeleted => ?_, fun id due hdue => ?_⟩
  · rw [h.deleted] at hdeleted
    cases hdeleted
  · rw [h.todo] at hdue
    exact absurd hdue not_mem_nil

theorem Fleet.Fresh.unclaimed {fleet : Fleet} (h : fleet.Fresh) : fleet.Unclaimed := by
  refine ⟨h.keyed, fun key record schedule _ _ _ => ?_, fun id due hdue => ?_⟩
  · rw [h.claimed]
    exact not_mem_nil
  · rw [h.todo] at hdue
    exact absurd hdue not_mem_nil

/-- **Torn down is for good, exactly when the ticks are current.** In every run a tenant whose
delete request was answered stays torn down and is not woken, until it is created again, if and only
if every tick that starts a container or changes the registry listed the tenant at hand after the
last such answer. And as long as no write of a tick puts a due time back that was claimed, no tick
wakes a tenant for a due time that was claimed when the tick listed it. -/
theorem torn_down_stays_iff (toISOString : ℤ → String) (dateParse : String → Option ℤ)
    {start reached : Fleet} {actions : List WakeAction} (hstart : start.Fresh)
    (hrun : run (Fleet.step toISOString dateParse) start actions = some reached)
    (hlisted : AllSteps (Fleet.step toISOString dateParse) Listed start actions) :
    (AllSteps (Fleet.step toISOString dateParse) (StaysTornDown toISOString dateParse)
      start actions ↔
      AllSteps (Fleet.step toISOString dateParse) Current start actions) ∧
    (AllSteps (Fleet.step toISOString dateParse) (Forward toISOString) start actions →
      AllSteps (Fleet.step toISOString dateParse) OncePerSlot start actions) := by
  have henabled := Runs.allSteps_isSome hrun
  refine ⟨⟨fun hlaw => ?_, fun hcurrent => ?_⟩, fun hforward => ?_⟩
  · refine Runs.allSteps_of_invariant Fleet.Kept (fun fleet action hkept h =>
      hkept.current h.1 h.2.2)
      (fun fleet action after hkept h hstep => ?_) hstart.kept
      (Runs.allSteps_and.2 ⟨henabled, Runs.allSteps_and.2 ⟨hlisted, hlaw⟩⟩)
    exact hkept.step h.2.1 (hkept.current h.1 h.2.2) hstep
  · refine Runs.allSteps_of_invariant Fleet.Kept (fun fleet action hkept h =>
      ⟨?_, fun after hafter => ?_⟩)
      (fun fleet action after hkept h hstep => hkept.step h.1 h.2 hstep) hstart.kept
      (Runs.allSteps_and.2 ⟨hlisted, hcurrent⟩)
    · cases action with
      | start id ok => exact fun due hhand => hkept.deleted_eq_false h.2 hhand
      | _ => trivial
    · exact (hkept.step h.1 h.2 hafter).down
  · refine Runs.allSteps_of_invariant Fleet.Unclaimed (fun fleet action hunclaimed h => ?_)
      (fun fleet action after hunclaimed h hstep => hunclaimed.step h.1 h.2 hstep) hstart.unclaimed
      (Runs.allSteps_and.2 ⟨hlisted, hforward⟩)
    cases action with
    | start id ok => exact fun due hhand => hunclaimed.seen id due (mem_of_atHand hhand)
    | _ => trivial

/-! ### Runs of one tenant -/

/-- The record of a tenant that is due every minute. -/
def acmeRecord (nextDueAt updatedAt : String) : TenantRegistryRecord :=
  ⟨⟨"acme"⟩, "ams", .active, "2026-07-01T00:00:00.000Z", updatedAt,
    some ⟨"discover", [], 60000, nextDueAt, none, none⟩, none, none⟩

/-- The minutes of an hour. -/
def minutes : List (ℤ × String) :=
  [(1782864000000, "2026-07-01T00:00:00.000Z"), (1782864060000, "2026-07-01T00:01:00.000Z"),
    (1782864120000, "2026-07-01T00:02:00.000Z"), (1782864180000, "2026-07-01T00:03:00.000Z")]

def minuteText (ms : ℤ) : String :=
  ((minutes.find? fun entry => entry.1 == ms).map Prod.snd).getD ""

def minuteOf (text : String) : Option ℤ := (minutes.find? fun entry => entry.2 == text).map Prod.fst

def acmeFleet : Fleet :=
  ⟨upsert emptyKv (acmeRecord "2026-07-01T00:00:00.000Z" "2026-07-01T00:00:00.000Z"),
    fun _ => .idle, fun _ => none,
    fun _ => false, fun _ => []⟩

theorem acmeFleet_fresh : acmeFleet.Fresh := by
  have hempty : Keyed emptyKv := nofun
  have hkeyed : Keyed acmeFleet.kv := by
    change Keyed (upsert emptyKv (acmeRecord _ _))
    exact hempty.upsert
  exact ⟨hkeyed, fun _ => rfl, fun _ => rfl, fun _ => rfl⟩

def tornDownReplies : DriverReplies := ⟨.ok (), .ok none, .ok (), .ok (), .ok (), .ok ()⟩

/-- A tick wakes the tenant and ends, and the tenant is deleted; the next tick finds it torn
down. -/
def orderlyRun : List WakeAction :=
  [.list 0 1782864000000 20 [acmeRecord "2026-07-01T00:00:00.000Z" "2026-07-01T00:00:00.000Z"],
    .write 0 1782864000000 .written, .start 0 true, .poll 0 (.stopped (some 0)),
      .write 0 1782864060000 .written,
    .readForDelete 0 "acme" "ams", .delete 0 tornDownReplies "2026-07-01T00:01:00.000Z" .written,
    .list 1 1782864060000 20 []]

/-- The delete request is answered between the listing and the claim. -/
def comebackRun : List WakeAction :=
  [.list 0 1782864000000 20 [acmeRecord "2026-07-01T00:00:00.000Z" "2026-07-01T00:00:00.000Z"],
    .readForDelete 0 "acme" "ams", .delete 0 tornDownReplies "2026-07-01T00:00:00.000Z" .written,
    .write 0 1782864000000 .written, .start 0 true]

/-- A second tick claims the next due time while the first one polls, and the result of the first
puts it back. -/
def putBackRun : List WakeAction :=
  [.list 0 1782864000000 20 [acmeRecord "2026-07-01T00:00:00.000Z" "2026-07-01T00:00:00.000Z"],
    .write 0 1782864000000 .written, .start 0 true,
    .list 1 1782864060000 20 [acmeRecord "2026-07-01T00:01:00.000Z" "2026-07-01T00:00:00.000Z"],
    .write 1 1782864060000 .written, .start 1 true,
    .poll 0 (.stopped none), .write 0 1782864120000 .written,
    .list 2 1782864120000 20
      [{ acmeRecord "2026-07-01T00:01:00.000Z" "2026-07-01T00:02:00.000Z" with
        amsSchedule :=
          some ⟨"discover", [], 60000, "2026-07-01T00:01:00.000Z",
            some "2026-07-01T00:02:00.000Z", none⟩ }],
    .write 2 1782864120000 .written, .start 2 true]

/-- In the orderly run, both laws hold. -/
theorem torn_down_stays_orderly :
    AllSteps (Fleet.step minuteText minuteOf) (StaysTornDown minuteText minuteOf) acmeFleet
      orderlyRun ∧
      AllSteps (Fleet.step minuteText minuteOf) OncePerSlot acmeFleet orderlyRun := by
  have hsome : (run (Fleet.step minuteText minuteOf) acmeFleet orderlyRun).isSome = true := by
    decide +kernel
  obtain ⟨reached, hrun⟩ := Option.isSome_iff_exists.1 hsome
  have hlaws := torn_down_stays_iff minuteText minuteOf acmeFleet_fresh hrun (by decide +kernel)
  exact ⟨hlaws.1.2 (by decide +kernel), hlaws.2 (by decide +kernel)⟩

/-- A torn-down tenant is active again and its container is started; and a tenant is woken twice for
a minute, the second time by a tick that listed it after the first had claimed it. -/
theorem torn_down_comes_back :
    (acmeFleet.Fresh ∧ (run (Fleet.step minuteText minuteOf) acmeFleet comebackRun).isSome = true ∧
      AllSteps (Fleet.step minuteText minuteOf) Listed acmeFleet comebackRun ∧
      ¬AllSteps (Fleet.step minuteText minuteOf) (StaysTornDown minuteText minuteOf) acmeFleet
        comebackRun) ∧
    (run (Fleet.step minuteText minuteOf) acmeFleet putBackRun).isSome = true ∧
      AllSteps (Fleet.step minuteText minuteOf) Listed acmeFleet putBackRun ∧
      ¬AllSteps (Fleet.step minuteText minuteOf) OncePerSlot acmeFleet putBackRun := by
  refine ⟨⟨acmeFleet_fresh, by decide +kernel, by decide +kernel, fun hlaw => ?_⟩,
    by decide +kernel,
    by decide +kernel, by decide +kernel⟩
  have hnot : ¬AllSteps (Fleet.step minuteText minuteOf) NotWoken acmeFleet comebackRun := by
    decide +kernel
  exact hnot (hlaw.mono fun _ _ h => h.1)

end LoopOver.Tenants
