import LoopOver.Miner.Allocator

/-!
# The slots of the worktree allocator are exclusive

Between the probe of a sweep and its compare-and-set, other processes may release a slot and lease
it again. The compare-and-set matches only a lease with the time and the owner that were probed, so
whatever it frees was judged, and a verdict does not lapse: an age is measured against the time that
the sweep has read, and a process that has ended stays so.

* `StoreHolds` is what the table keeps, whatever the calls do, and `CallHolds` what a sweep knows of
  the row it frees.
* `advance_cases` says what a step of a call does to the table.
* `lease_ends`: a lease ends when its attempt is released, or when it is reclaimed as an orphan.
* **`slots_exclusive`** is about every run of the processes.
-/

namespace LoopOver.WorktreeAllocator

open List

/-! ## The table -/

/-- What the table keeps. -/
structure StoreHolds (rows : Rows) : Prop where
  slots : (rows.map fun row => row.slotIndex).Nodup
  paths : (rows.map fun row => row.worktreePath).Nodup
  attempts : ∀ a ∈ rows, ∀ b ∈ rows, ∀ attemptId, a.attemptId = some attemptId →
    b.attemptId = some attemptId → a = b
  leased : ∀ row ∈ rows, row.status = .active ↔ row.attemptId.isSome = true

variable {f : WorktreeSlotRow → WorktreeSlotRow} {p : WorktreeSlotRow → Bool}

section Rows

variable {rows rows' : Rows} {row : WorktreeSlotRow} {allocator : Allocator}
  {attemptId repoFullName : String}
  {allocatedAt : ℕ}

theorem StoreHolds.attempt_of_active (h : StoreHolds rows) (hrow : row ∈ rows)
    (hactive : row.status = .active) :
    ∃ attemptId, row.attemptId = some attemptId :=
  Option.isSome_iff_exists.1 ((h.leased row hrow).1 hactive)

theorem StoreHolds.ensureSlot (h : StoreHolds rows) (worktreeBaseDir : String) (slotIndex : ℕ) :
    StoreHolds (ensureSlot worktreeBaseDir slotIndex rows) := by
  unfold WorktreeAllocator.ensureSlot
  extract_lets worktreePath
  split
  · exact h
  · next hnew =>
    simp only [any_eq_true, Bool.or_eq_true, beq_iff_eq, not_exists, not_and, not_or] at hnew
    refine ⟨?_, ?_, fun a ha b hb id hida hidb => ?_, fun row hrow => ?_⟩
    · rw [map_append]
      refine h.slots.append (nodup_singleton _) fun i hi hlast => ?_
      obtain ⟨row, hrow, rfl⟩ := mem_map.1 hi
      exact (hnew row hrow).1 (mem_singleton.1 hlast)
    · rw [map_append]
      refine h.paths.append (nodup_singleton _) fun path hpath hlast => ?_
      obtain ⟨row, hrow, rfl⟩ := mem_map.1 hpath
      exact (hnew row hrow).2 (mem_singleton.1 hlast)
    · -- the new slot has no attempt
      rcases mem_append.1 ha with ha | ha
      · rcases mem_append.1 hb with hb | hb
        · exact h.attempts a ha b hb id hida hidb
        · obtain rfl := mem_singleton.1 hb
          cases hidb
      · obtain rfl := mem_singleton.1 ha
        cases hida
    · rcases mem_append.1 hrow with hrow | hrow
      · exact h.leased row hrow
      · obtain rfl := mem_singleton.1 hrow
        simp

theorem mem_ensureSlot (worktreeBaseDir : String) (slotIndex : ℕ) (hrow : row ∈ rows) :
    row ∈ WorktreeAllocator.ensureSlot worktreeBaseDir slotIndex rows := by
  unfold WorktreeAllocator.ensureSlot
  extract_lets worktreePath
  split
  · exact hrow
  · exact mem_append_left _ hrow

theorem countActive_ensureSlot (worktreeBaseDir : String) (slotIndex : ℕ) (rows : Rows) :
    countActive (WorktreeAllocator.ensureSlot worktreeBaseDir slotIndex rows) =
      countActive rows := by
  unfold WorktreeAllocator.ensureSlot countActive
  extract_lets worktreePath
  split
  · rfl
  · rw [countP_append]
    rfl

/-- An update that keeps the slots keeps them apart. -/
theorem StoreHolds.of_update (h : StoreHolds rows)
    (hslot : ∀ row, (f row).slotIndex = row.slotIndex)
    (hpath : ∀ row, (f row).worktreePath = row.worktreePath)
    (hleased : ∀ row, (f row).status = .active ↔ (f row).attemptId.isSome = true)
    (hattempts : ∀ a ∈ rows, p a = true → ∀ attemptId, (f a).attemptId = some attemptId →
      ∀ b ∈ rows, (if p b then f b else b).attemptId = some attemptId → a = b) :
    StoreHolds (Table.updateWhere p f rows) := by
  refine ⟨?_, ?_, ?_, ?_⟩
  · have hkeys : (Table.updateWhere p f rows).map (fun row => row.slotIndex) = rows.map fun row =>
        row.slotIndex :=
      Table.keys_updateWhere fun row _ => hslot row
    exact hkeys ▸ h.slots
  · have hkeys : (Table.updateWhere p f rows).map (fun row => row.worktreePath) =
        rows.map fun row => row.worktreePath := Table.keys_updateWhere fun row _ => hpath row
    exact hkeys ▸ h.paths
  · intro a ha b hb id hida hidb
    obtain ⟨a, ha', rfl⟩ := Table.mem_updateWhere.1 ha
    obtain ⟨b, hb', rfl⟩ := Table.mem_updateWhere.1 hb
    by_cases hpa : p a = true
    · rw [if_pos hpa] at hida
      rw [hattempts a ha' hpa id hida b hb' hidb]
    · by_cases hpb : p b = true
      · rw [if_pos hpb] at hidb
        rw [hattempts b hb' hpb id hidb a ha' hida]
      · rw [if_neg hpa] at hida ⊢
        rw [if_neg hpb] at hidb ⊢
        exact h.attempts a ha' b hb' id hida hidb
  · intro row hrow
    obtain ⟨old, hold, rfl⟩ := Table.mem_updateWhere.1 hrow
    split_ifs
    · exact hleased old
    · exact h.leased old hold

theorem StoreHolds.free (h : StoreHolds rows) (p : WorktreeSlotRow → Bool) :
    StoreHolds (Table.updateWhere p freeSlot rows) :=
  h.of_update (fun _ => rfl) (fun _ => rfl) (fun _ => by simp [freeSlot]) fun _ _ _ _ hid =>
    by cases hid

theorem countActive_free_le (p : WorktreeSlotRow → Bool) (rows : Rows) :
    countActive (Table.updateWhere p freeSlot rows) ≤ countActive rows :=
  Table.countP_updateWhere_le_of fun _ _ hactive => by cases hactive

/-- The slot that a transaction leases is free, and its attempt has no other one. -/
theorem StoreHolds.lease (h : StoreHolds rows) {slotIndex : ℕ}
    (hnew : ∀ row ∈ rows, row.attemptId ≠ some attemptId) :
    StoreHolds (Table.updateWhere (fun row => row.slotIndex == slotIndex)
      (leaseSlot allocator attemptId repoFullName allocatedAt) rows) := by
  refine h.of_update (fun _ => rfl) (fun _ => rfl) (fun _ => ⟨fun _ => rfl, fun _ => rfl⟩) ?_
  intro a ha hpa id hid b hb
  obtain rfl : attemptId = id := Option.some.inj hid
  split_ifs with hpb
  · intro _
    exact Table.eq_of_key h.slots ha hb ((beq_iff_eq.1 hpa).trans (beq_iff_eq.1 hpb).symm)
  · intro hother
    exact absurd hother (hnew b hb)

theorem countActive_lease_le (h : StoreHolds rows) (slotIndex : ℕ) :
    countActive (Table.updateWhere (fun row => row.slotIndex == slotIndex)
      (leaseSlot allocator attemptId repoFullName allocatedAt) rows) ≤ countActive rows + 1 :=
  (Table.countP_updateWhere_le _ _ _ rows).trans
    (Nat.add_le_add_left (Table.countP_key_le_one h.slots slotIndex) _)

/-- What the transaction of `acquire` does: nothing, or it leases a free slot below the cap. -/
theorem transact_cases (h : StoreHolds rows) (allocator : Allocator)
    (attemptId repoFullName : String) (allocatedAt : ℕ) :
    (transact allocator attemptId repoFullName allocatedAt rows).2 = rows ∨
      countActive rows < allocator.maxConcurrency ∧ (∀ row ∈ rows, row.attemptId ≠ some attemptId) ∧
        ∃ slot ∈ rows, slot.status = .free ∧
          transact allocator attemptId repoFullName allocatedAt rows =
          (.ok (leaseSlot allocator attemptId repoFullName allocatedAt slot),
            Table.updateWhere (fun row => row.slotIndex == slot.slotIndex)
              (leaseSlot allocator attemptId repoFullName allocatedAt) rows) := by
  unfold transact
  split
  · exact Or.inl rfl
  · next hraced =>
    have hnew : ∀ row ∈ rows, row.attemptId ≠ some attemptId := by
      intro row hrow hid
      obtain ⟨found, hfound⟩ := Option.isSome_iff_exists.1
        (List.find?_isSome (p := fun row => row.attemptId == some attemptId).2 ⟨row, hrow,
          beq_iff_eq.2 hid⟩)
      have hfoundId := List.find?_some hfound
      have hactive : found.status = .active :=
        (h.leased found (mem_of_find?_eq_some hfound)).2 (by rw [beq_iff_eq.1 hfoundId]; rfl)
      rw [getByAttempt, hfound, Option.filter_some, hactive] at hraced
      cases hraced
    split
    · exact Or.inl rfl
    · next hbelow =>
      split
      · exact Or.inl rfl
      · next slot hslot =>
        obtain ⟨hmem, hfree⟩ := Table.firstBy_mem hslot
        split
        · exact Or.inl rfl
        · next marked hmarked =>
          unfold markActive at hmarked
          split at hmarked
          · cases hmarked
          · obtain rfl := Except.ok.inj hmarked
            exact Or.inr ⟨Nat.lt_of_not_le hbelow, hnew, slot, hmem, beq_iff_eq.1 hfree, rfl⟩

end Rows

/-! ## A step of a call -/

/-- What is true of a call: the row that its sweep frees next was judged orphaned, and only the
opening of an allocator adds slots. -/
structure CallHolds (running : String → ℤ → Bool) (call : Call) : Prop where
  judged : ∀ nowMs orphan rest, call.stage = .reclaim nowMs orphan rest →
    isSlotOrphaned (running call.allocator.hostId) orphan nowMs call.allocator.maxLeaseMs
      call.allocator.hostId = true
  opening : ∀ slotIndex, call.stage = .ensureSlots slotIndex → call.task = .openWorktreeAllocator

/-- A stage of which `CallHolds` says nothing. -/
def Stage.Quiet : Stage → Prop
  | .reclaim _ _ _ | .ensureSlots _ => False
  | _ => True

/-- Before the lookup has been made. -/
def Stage.Asking : Stage → Prop
  | .transact _ _ | .answered _ => False
  | _ => True

section Steps

variable {running running' : String → ℤ → Bool} {clock : ℕ} {call : Call} {rows rows' : Rows}
  {stage : Stage}

/-- What a step of a call does to the table, and the stage that it goes on to. -/
inductive Advances (running : String → ℤ → Bool) (clock : ℕ) (call : Call) (rows : Rows) :
    Rows → Stage → Prop
  | goesOn {stage : Stage} (hbefore : call.stage.Asking) (hasking : stage.Asking)
      (hquiet : stage.Quiet) :
      Advances running clock call rows rows stage
  | judges {nowMs : ℚ} {orphan : OrphanProbeRow} {rest : List OrphanProbeRow}
      (hbefore : call.stage.Asking)
      (horphan : isSlotOrphaned (running call.allocator.hostId) orphan nowMs
        call.allocator.maxLeaseMs
        call.allocator.hostId = true) :
      Advances running clock call rows rows (.reclaim nowMs orphan rest)
  | ensures {slotIndex : ℕ} (hstage : call.stage = .ensureSlots slotIndex) :
      Advances running clock call rows (ensureSlot call.allocator.worktreeBaseDir slotIndex rows)
        (.ensureSlots (slotIndex + 1))
  | reclaims {nowMs : ℚ} {orphan : OrphanProbeRow} {rest : List OrphanProbeRow}
      (hstage : call.stage = .reclaim nowMs orphan rest) :
      Advances running clock call rows (reclaimStatement orphan rows) (.judge nowMs rest)
  | looksUp {attemptId repoFullName : Untyped} (hstage : call.stage = .lookUp)
      (htask : call.task = .acquire attemptId repoFullName) :
      Advances running clock call rows rows (lookUp attemptId repoFullName rows)
  | transacts {attemptId repoFullName : String}
      (hstage : call.stage = .transact attemptId repoFullName) :
      Advances running clock call rows (transact call.allocator attemptId repoFullName clock rows).2
        (.answered (transact call.allocator attemptId repoFullName clock rows).1)

theorem advances_of_advance (hadvance : advance running clock call rows = some (rows', stage)) :
    Advances running clock call rows rows' stage := by
  obtain ⟨allocator, task, before⟩ := call
  cases before <;> simp only [advance] at hadvance
  case ensureSlots slotIndex =>
    split at hadvance <;> cases hadvance
    · exact .ensures rfl
    · exact .goesOn trivial trivial trivial
  case judge nowMs orphans =>
    cases orphans with
    | nil =>
      cases hadvance
      exact .goesOn trivial (by cases task <;> trivial) (by cases task <;> trivial)
    | cons orphan rest =>
      simp only at hadvance
      split at hadvance <;> cases hadvance
      · next horphan => exact .judges trivial horphan
      · exact .goesOn trivial trivial trivial
  case lookUp =>
    cases task with
    | openWorktreeAllocator => cases hadvance
    | acquire attemptId repoFullName =>
      cases hadvance
      exact .looksUp rfl rfl
  all_goals cases hadvance
  case reclaim nowMs orphan rest => exact .reclaims rfl
  case transact attemptId repoFullName => exact .transacts rfl
  all_goals exact .goesOn trivial trivial trivial

theorem callHolds_of_quiet (hquiet : stage.Quiet) (allocator : Allocator) (task : Task) :
    CallHolds running ⟨allocator, task, stage⟩ := by
  refine ⟨fun nowMs orphan rest hstage => ?_, fun slotIndex hstage => ?_⟩
  · obtain rfl : stage = .reclaim nowMs orphan rest := hstage
    exact hquiet.elim
  · obtain rfl : stage = .ensureSlots slotIndex := hstage
    exact hquiet.elim

theorem quiet_lookUp (attemptId repoFullName : Untyped) (rows : Rows) :
    (lookUp attemptId repoFullName rows).Quiet := by
  unfold lookUp
  split
  · trivial
  · trivial
  · split
    · split <;> trivial
    · trivial

theorem CallHolds.advance (h : CallHolds running call)
    (hadvance : Advances running clock call rows rows' stage) :
    CallHolds running { call with stage := stage } := by
  cases hadvance with
  | goesOn _ _ hquiet => exact callHolds_of_quiet hquiet call.allocator call.task
  | judges _ horphan =>
    refine ⟨?_, by rintro _ ⟨⟩⟩
    rintro _ _ _ ⟨⟩
    exact horphan
  | ensures hstage => exact ⟨by rintro _ _ _ ⟨⟩, fun _ _ => h.opening _ hstage⟩
  | looksUp _ _ => exact callHolds_of_quiet (quiet_lookUp _ _ _) call.allocator call.task
  | reclaims _ | transacts _ => exact callHolds_of_quiet (by trivial) call.allocator call.task

/-- A verdict does not lapse when a process ends. -/
theorem isSlotOrphaned_of_exit {alive alive' : ℤ → Bool} {row : OrphanProbeRow}
    {nowMs maxLeaseMs : ℚ} {hostId : String} (hexit : ∀ pid, alive' pid = true → alive pid = true)
    (h : isSlotOrphaned alive row nowMs maxLeaseMs hostId = true) :
    isSlotOrphaned alive' row nowMs maxLeaseMs hostId = true := by
  unfold isSlotOrphaned at h ⊢
  split_ifs at h ⊢
  · rfl
  · cases hpid : row.ownerPid with
    | none => rfl
    | some pid =>
      rw [hpid] at h
      simp only [Option.any_some, isProcessAlive, Bool.not_eq_true', Bool.and_eq_false_iff] at h ⊢
      rcases h with hneg | hended
      · exact Or.inl hneg
      · refine Or.inr (Bool.eq_false_iff.2 fun hrunning => ?_)
        rw [hexit pid hrunning] at hended
        cases hended

theorem CallHolds.exit (h : CallHolds running call)
    (hexit : ∀ host pid, running' host pid = true → running host pid = true) :
    CallHolds running' call :=
  ⟨fun nowMs orphan rest hstage =>
    isSlotOrphaned_of_exit (hexit call.allocator.hostId) (h.judged nowMs orphan rest hstage),
      h.opening⟩

end Steps

/-! ## Runs -/

/-- What every reachable state keeps. -/
structure StateHolds (s : StoreState) : Prop where
  store : StoreHolds s.rows
  capped : countActive s.rows = 0 ∨
    ∃ id call, s.calls id = some call ∧ countActive s.rows ≤ call.allocator.maxConcurrency
  calls : ∀ id call, s.calls id = some call → CallHolds s.running call

/-- The next step of the call frees slots with the lease of the row, and the lease is orphaned. -/
def ReclaimsOrphan (s : StoreState) (id : ℕ) (row : WorktreeSlotRow) : Prop :=
  ∃ call nowMs orphan rest, s.calls id = some call ∧ call.stage = .reclaim nowMs orphan rest ∧
    isSlotOrphaned (s.running call.allocator.hostId) row.toOrphanProbeRow nowMs
      call.allocator.maxLeaseMs
      call.allocator.hostId = true

/-- The action releases the attempt of the row. -/
def Releases (action : Action) (row : WorktreeSlotRow) : Prop :=
  ∃ argument attemptId, action = .release argument ∧ normalizeAttemptId argument = .ok attemptId ∧
    row.attemptId = some attemptId

section Runs

variable {s s' : StoreState} {action : Action} {row : WorktreeSlotRow} {id clock : ℕ} {call : Call}

/-- What an action does. -/
inductive Steps (s : StoreState) : Action → StoreState → Prop
  | refused (id : ℕ) (process : Process) (options : AllocatorOptions) :
      Steps s (.openWorktreeAllocator id process options) s
  | opens {id : ℕ} (process : Process) (options : AllocatorOptions) (allocator : Allocator)
      (hnew : s.calls id = none) :
      Steps s (.openWorktreeAllocator id process options)
        (s.setCall id ⟨allocator, .openWorktreeAllocator, .ensureSlots 0⟩)
  | acquires {id : ℕ} (opener : ℕ) (attemptId repoFullName : Untyped) (allocator : Allocator)
      (hnew : s.calls id = none) :
      Steps s (.acquire id opener attemptId repoFullName)
        (s.setCall id ⟨allocator, .acquire attemptId repoFullName, .readClock⟩)
  | advances {id clock : ℕ} {call : Call} {rows : Rows} {stage : Stage}
      (hcall : s.calls id = some call)
      (hadvance : Advances s.running clock call s.rows rows stage) :
      Steps s (.advance id clock) ({ s with rows := rows }.setCall id { call with stage := stage })
  | fails {id : ℕ} {call : Call} (message : String) (hcall : s.calls id = some call)
      (hwaits : ∀ answer, call.stage ≠ .answered answer) :
      Steps s (.fail id message) (s.setCall id { call with stage := .answered (.error message) })
  | ignored (argument : Untyped) : Steps s (.release argument) s
  | releases {argument : Untyped} {attemptId : String}
      (hattempt : normalizeAttemptId argument = .ok attemptId) :
      Steps s (.release argument) { s with rows := (releaseByAttempt attemptId s.rows).2 }
  | exits (hostId : String) (pid : ℤ) : Steps s (.exit hostId pid)
      { s with running := fun host other => s.running host other &&
        !(host == hostId && other == pid) }

theorem steps_of_step (hstep : step s action = some s') : Steps s action s' := by
  cases action with
  | openWorktreeAllocator id process options =>
    simp only [step] at hstep
    split at hstep <;> cases hstep
    · exact .refused id process options
    · next allocator hnew _ => exact .opens process options allocator hnew
  | acquire id opener attemptId repoFullName =>
    simp only [step] at hstep
    split at hstep <;> cases hstep
    next allocator _ hnew _ => exact .acquires opener attemptId repoFullName allocator hnew
  | advance id clock =>
    simp only [step, Option.bind_eq_bind, Option.bind_eq_some_iff] at hstep
    obtain ⟨call, hcall, ⟨rows, stage⟩, hadvance, hs'⟩ := hstep
    cases hs'
    exact .advances hcall (advances_of_advance hadvance)
  | fail id message =>
    simp only [step] at hstep
    split at hstep <;> cases hstep
    next call _ hnot hcall =>
      exact .fails message hcall fun answer hstage =>
        hnot call.allocator call.task answer (hstage ▸ rfl)
  | release argument =>
    simp only [step] at hstep
    split at hstep <;> cases hstep
    · exact .ignored argument
    · next attemptId hattempt => exact .releases hattempt
  | exit hostId pid =>
    cases hstep
    exact .exits hostId pid

theorem calls_setCall {other : ℕ} {call' : Call}
    (h : (s.setCall id call).calls other = some call') :
    other = id ∧ call' = call ∨ other ≠ id ∧ s.calls other = some call' := by
  simp only [StoreState.setCall, Function.update_apply] at h
  split at h
  · next heq => exact Or.inl ⟨heq, (Option.some.inj h).symm⟩
  · next hne => exact Or.inr ⟨hne, h⟩

/-- A bound that a call sets stays set when a call goes on. -/
theorem capped_setCall {n : ℕ} (hid : ∀ old, s.calls id = some old → old.allocator = call.allocator)
    (h : ∃ other old, s.calls other = some old ∧ n ≤ old.allocator.maxConcurrency) :
    ∃ other old, (s.setCall id call).calls other = some old ∧ n ≤ old.allocator.maxConcurrency := by
  obtain ⟨other, old, hold, hle⟩ := h
  by_cases heq : other = id
  · subst heq
    exact ⟨other, call, Function.update_self .., hid old hold ▸ hle⟩
  · exact ⟨other, old, (Function.update_of_ne heq _ _).trans hold, hle⟩

/-- A call starts or goes on, and the table stays as it is. -/
theorem StateHolds.setCall (h : StateHolds s)
    (hid : ∀ old, s.calls id = some old → old.allocator = call.allocator)
    (hcall : CallHolds s.running call) : StateHolds (s.setCall id call) := by
  refine ⟨h.store, h.capped.imp_right (capped_setCall hid), fun other call' hcall' => ?_⟩
  rcases calls_setCall hcall' with ⟨_, rfl⟩ | ⟨_, hother⟩
  · exact hcall
  · exact h.calls other call' hother

/-- The table loses leases, and no call notices. -/
theorem StateHolds.free (h : StateHolds s) (p : WorktreeSlotRow → Bool) :
    StateHolds { s with rows := Table.updateWhere p freeSlot s.rows } := by
  have hcount := countActive_free_le p s.rows
  refine ⟨h.store.free p, ?_, h.calls⟩
  rcases h.capped with hzero | ⟨other, call, hcall, hle⟩
  · exact Or.inl (Nat.le_zero.1 (hcount.trans hzero.le))
  · exact Or.inr ⟨other, call, hcall, hcount.trans hle⟩

/-- What a step of a call leaves in the table. -/
theorem StateHolds.rows_advance {rows : Rows} {stage : Stage} (h : StateHolds s)
    (hcall : s.calls id = some call) (hadvance : Advances s.running clock call s.rows rows stage) :
    StateHolds { s with rows := rows } := by
  cases hadvance with
  | goesOn | judges | looksUp => exact h
  | @ensures slotIndex hstage =>
    refine ⟨h.store.ensureSlot _ slotIndex, ?_, h.calls⟩
    show countActive (ensureSlot _ slotIndex s.rows) = 0 ∨
      ∃ other call, s.calls other = some call ∧ countActive (ensureSlot _ slotIndex s.rows) ≤ _
    rw [countActive_ensureSlot]
    exact h.capped
  | reclaims => exact h.free _
  | @transacts attemptId repoFullName hstage =>
    rcases transact_cases h.store call.allocator attemptId repoFullName clock with
      hsame | ⟨hbelow, hnew, slot, _, _, heq⟩
    · rw [hsame]
      exact h
    · rw [heq]
      have hcount : countActive (Table.updateWhere (fun row => row.slotIndex == slot.slotIndex)
          (leaseSlot call.allocator attemptId repoFullName clock) s.rows) ≤
            countActive s.rows + 1 :=
        countActive_lease_le h.store slot.slotIndex
      exact ⟨h.store.lease hnew, Or.inr ⟨id, call, hcall, hcount.trans hbelow⟩, h.calls⟩

/-- A new call has no bound to keep. -/
theorem StateHolds.newCall (h : StateHolds s) (hnew : s.calls id = none)
    (hcall : CallHolds s.running call) :
    StateHolds (s.setCall id call) :=
  h.setCall (fun _ hold => absurd (hnew.symm.trans hold) nofun) hcall

/-- A call that goes on keeps its allocator. -/
theorem StateHolds.nextStage {stage : Stage} (h : StateHolds s) (hid : s.calls id = some call)
    (hcall : CallHolds s.running { call with stage := stage }) :
    StateHolds (s.setCall id { call with stage := stage }) :=
  h.setCall (fun old hold => by rw [Option.some.inj (hold.symm.trans hid)]) hcall

theorem step_holds (h : StateHolds s) (hstep : Steps s action s') : StateHolds s' := by
  cases hstep with
  | refused | ignored => exact h
  | opens _ _ _ hnew => exact h.newCall hnew ⟨by rintro _ _ _ ⟨⟩, fun _ _ => rfl⟩
  | acquires _ _ _ _ hnew => exact h.newCall hnew (callHolds_of_quiet (by trivial) _ _)
  | advances hcall hadvance =>
    exact (h.rows_advance hcall hadvance).nextStage hcall ((h.calls _ _ hcall).advance hadvance)
  | fails _ hcall _ => exact h.nextStage hcall (callHolds_of_quiet (by trivial) _ _)
  | releases _ => exact h.free _
  | exits hostId pid =>
    exact ⟨h.store, h.capped, fun other call hcall =>
      (h.calls other call hcall).exit fun host other hrunning =>
        (Bool.and_eq_true_iff.1 hrunning).1⟩

theorem emptyStore_holds : StateHolds emptyStore :=
  ⟨⟨nodup_nil, nodup_nil, fun _ ha => absurd ha not_mem_nil, fun _ hrow => absurd hrow not_mem_nil⟩,
    Or.inl rfl, fun _ _ hcall => by cases hcall⟩

/-- The compare-and-set of a sweep frees orphans only. -/
theorem StateHolds.reclaimsOrphan {nowMs : ℚ} {orphan : OrphanProbeRow} {rest : List OrphanProbeRow}
    (h : StateHolds s) (hcall : s.calls id = some call)
    (hstage : call.stage = .reclaim nowMs orphan rest) (hrow : row.toOrphanProbeRow = orphan) :
    ReclaimsOrphan s id row :=
  ⟨call, nowMs, orphan, rest, hcall, hstage,
    hrow ▸ (h.calls id call hcall).judged nowMs orphan rest hstage⟩

/-- A row that an update does not keep is one that it changes. -/
theorem of_notMem_updateWhere {rows : Rows}
    (hrow : row ∈ rows) (hnot : row ∉ Table.updateWhere p f rows) : p row = true := by
  by_contra hp
  have hmem := Table.mem_updateWhere_of_mem p f hrow
  rw [if_neg hp] at hmem
  exact hnot hmem

/-- **How a lease ends**: its attempt is released, or it is reclaimed as an orphan. -/
theorem lease_ends (h : StateHolds s) (hstep : Steps s action s') (hrow : row ∈ s.rows)
    (hactive : row.status = .active) (hended : row ∉ s'.rows) :
    Releases action row ∨ ∃ id clock, action = .advance id clock ∧ ReclaimsOrphan s id row := by
  cases hstep with
  | refused | opens | acquires | fails | ignored | exits => exact absurd hrow hended
  | @advances id clock call _ _ hcall hadvance =>
    cases hadvance with
    | goesOn | judges | looksUp => exact absurd hrow hended
    | @ensures slotIndex _ => exact absurd (mem_ensureSlot _ slotIndex hrow) hended
    | reclaims hstage =>
      have hprobed := Bool.and_eq_true_iff.1 (of_notMem_updateWhere hrow hended)
      exact Or.inr ⟨id, clock, rfl, h.reclaimsOrphan hcall hstage (beq_iff_eq.1 hprobed.2)⟩
    | @transacts attemptId repoFullName _ =>
      replace hended : row ∉ (transact call.allocator attemptId repoFullName clock s.rows).2 :=
        hended
      rcases transact_cases h.store call.allocator attemptId repoFullName clock with
        hsame | ⟨_, _, slot, hslot, hfree, heq⟩
      · rw [hsame] at hended
        exact absurd hrow hended
      · -- the transaction changes the slot that it found free, and no other one
        rw [heq] at hended
        obtain rfl := Table.eq_of_key h.store.slots hrow hslot
          (beq_iff_eq.1 (of_notMem_updateWhere hrow hended))
        rw [hactive] at hfree
        cases hfree
  | @releases argument attemptId hattempt =>
    have hreleased := Bool.and_eq_true_iff.1 (of_notMem_updateWhere hrow hended)
    exact Or.inl ⟨argument, attemptId, rfl, hattempt, beq_iff_eq.1 hreleased.1⟩

/-- What a step of `acquire` does: it answers with a slot, or it frees orphans and nothing else. -/
theorem acquire_step {attemptId repoFullName : Untyped} (h : StateHolds s)
    (hstep : Steps s (.advance id clock) s') (hcall : s.calls id = some call)
    (htask : call.task = .acquire attemptId repoFullName) :
    (∃ slot, s'.calls id = some { call with stage := .answered (.ok slot) }) ∨
      List.Forall₂ (fun row row' => row' = row ∨ row' = freeSlot row ∧
        ReclaimsOrphan s id row) s.rows s'.rows := by
  have hsame :
      List.Forall₂ (fun row row' => row' = row ∨ row' = freeSlot row ∧
        ReclaimsOrphan s id row) s.rows s.rows :=
    forall₂_same.2 fun _ _ => Or.inl rfl
  cases hstep with
  | advances hcall' hadvance =>
    obtain rfl := Option.some.inj (hcall.symm.trans hcall')
    cases hadvance with
    | goesOn | judges | looksUp => exact Or.inr hsame
    | ensures hstage =>
      rw [(h.calls id call hcall).opening _ hstage] at htask
      cases htask
    | reclaims hstage =>
      refine Or.inr ((Table.forall₂_updateWhere _ freeSlot s.rows).imp ?_)
      rintro row row' (⟨hp, rfl⟩ | ⟨_, rfl⟩)
      · exact Or.inr ⟨rfl,
          h.reclaimsOrphan hcall hstage (beq_iff_eq.1 (Bool.and_eq_true_iff.1 hp).2)⟩
      · exact Or.inl rfl
    | @transacts attemptId repoFullName _ =>
      rcases transact_cases h.store call.allocator attemptId repoFullName clock with
        heq | ⟨_, _, slot, _, _, heq⟩ <;> rw [heq]
      · exact Or.inr hsame
      · exact Or.inl ⟨_, Function.update_self ..⟩

end Runs

/-- The leases are not older than the bound of the sweep that goes on now, and their owners run. -/
def LeasesHold (s : StoreState) : Action → Prop
  | .advance id _ =>
    ∀ call, s.calls id = some call → ∀ nowMs orphan rest, call.stage = .reclaim nowMs orphan rest →
    ∀ row ∈ s.rows, row.status = .active →
      (∃ hostId pid, row.ownerHost = some hostId ∧ row.ownerPid = some pid ∧
        isProcessAlive (s.running hostId) pid = true) ∧
      ∀ allocatedAt, row.allocatedAt = some allocatedAt →
        nowMs - allocatedAt ≤ call.allocator.maxLeaseMs
  | _ => True

theorem not_reclaimsOrphan {s : StoreState} {id clock : ℕ} {row : WorktreeSlotRow}
    (h : LeasesHold s (.advance id clock)) (hrow : row ∈ s.rows) (hactive : row.status = .active) :
    ¬ReclaimsOrphan s id row := by
  rintro ⟨call, nowMs, orphan, rest, hcall, hstage, horphan⟩
  obtain ⟨⟨hostId, pid, hhost, hpid, halive⟩, hage⟩ :=
    h call hcall nowMs orphan rest hstage row hrow hactive
  unfold isSlotOrphaned at horphan
  split_ifs at horphan with hold hsame
  · cases hat : row.allocatedAt with
    | none =>
      rw [hat] at hold
      cases hold
    | some allocatedAt =>
      rw [hat] at hold
      exact absurd (hage allocatedAt hat) (not_le.2 (of_decide_eq_true hold))
  · rw [hhost, beq_iff_eq, Option.some.injEq] at hsame
    rw [hpid, Option.any_some, ← hsame, halive] at horphan
    cases horphan

/-- **The slots are exclusive**, whatever the processes do and in any order: the active ones have
attempts and paths of their own and are no more than the largest cap in use; a call frees no lease
that is not orphaned; a step of `acquire` that does not answer with a slot frees orphans and nothing
else; and while no lease is orphaned, a slot goes from one attempt to another only after a
release. -/
theorem slots_exclusive {actions : List Action} {s : StoreState}
    (hrun : Runs.run step emptyStore actions = some s) :
    (∀ a ∈ s.rows, ∀ b ∈ s.rows, a.status = .active → b.status = .active → a ≠ b →
      a.attemptId ≠ b.attemptId ∧ a.worktreePath ≠ b.worktreePath ∧ a.slotIndex ≠ b.slotIndex) ∧
    (∀ bound, (∀ id call, s.calls id = some call → call.allocator.maxConcurrency ≤ bound) →
      countActive s.rows ≤ bound) ∧
    (∀ before after id clock row,
      Runs.Occurs step emptyStore actions before (.advance id clock) after →
      row ∈ before.rows → row.status = .active → row ∉ after.rows → ReclaimsOrphan before id row) ∧
    (∀ before after id clock call attemptId repoFullName,
      Runs.Occurs step emptyStore actions before (.advance id clock) after →
        before.calls id = some call →
      call.task = .acquire attemptId repoFullName →
      (∃ slot, after.calls id = some { call with stage := .answered (.ok slot) }) ∨
        List.Forall₂ (fun row row' => row' = row ∨ row' = freeSlot row ∧
          ReclaimsOrphan before id row)
          before.rows after.rows) ∧
    (∀ before after id message,
      Runs.Occurs step emptyStore actions before (.fail id message) after →
      after.rows = before.rows) ∧
    (Runs.AllSteps step LeasesHold emptyStore actions →
      ∀ front mid back s₁ s₂ row row', actions = front ++ mid ++ back →
        Runs.run step emptyStore front = some s₁ →
        Runs.run step s₁ mid = some s₂ → row ∈ s₁.rows → row.status = .active → row' ∈ s₂.rows →
        row'.status = .active → row'.slotIndex = row.slotIndex → row'.attemptId ≠ row.attemptId →
        ∃ before action after, Runs.Occurs step s₁ mid before action after ∧ row ∈ before.rows ∧
          row ∉ after.rows ∧
          Releases action row) := by
  have hholds : ∀ {actions s}, Runs.run step emptyStore actions = some s → StateHolds s :=
    fun hrun => Runs.run_invariant (fun h hstep => step_holds h (steps_of_step hstep)) hrun
      emptyStore_holds
  refine ⟨?_, ?_, ?_, ?_, ?_, ?_⟩
  · intro a ha b hb hactive _ hne
    obtain ⟨attemptId, hattempt⟩ := (hholds hrun).store.attempt_of_active ha hactive
    refine ⟨fun heq => hne ?_, fun heq => hne ?_, fun heq => hne ?_⟩
    · exact (hholds hrun).store.attempts a ha b hb attemptId hattempt (heq ▸ hattempt)
    · exact Table.eq_of_key (hholds hrun).store.paths ha hb heq
    · exact Table.eq_of_key (hholds hrun).store.slots ha hb heq
  · intro bound hbound
    rcases (hholds hrun).capped with hzero | ⟨id, call, hcall, hle⟩
    · omega
    · exact hle.trans (hbound id call hcall)
  · rintro before after id clock row ⟨front, back, rfl, hfront, hstep⟩ hrow hactive hended
    rcases lease_ends (hholds hfront) (steps_of_step hstep) hrow hactive hended with
      ⟨argument, attemptId, haction, _⟩ | ⟨other, _, haction, horphan⟩
    · cases haction
    · obtain ⟨rfl, _⟩ := Action.advance.inj haction
      exact horphan
  · rintro before after id clock call attemptId repoFullName ⟨front, back, rfl, hfront,
      hstep⟩ hcall htask
    exact acquire_step (hholds hfront) (steps_of_step hstep) hcall htask
  · rintro before after id message ⟨front, back, rfl, hfront, hstep⟩
    cases steps_of_step hstep
    rfl
  · rintro hall front mid back s₁ s₂ row row' rfl hfront hmid hrow hactive hrow' _ hslot hattempt
    have hlast := hholds (Runs.run_append.2 ⟨s₁, hfront, hmid⟩)
    have hgone : row ∉ s₂.rows := by
      intro hstays
      rw [Table.eq_of_key hlast.store.slots hrow' hstays hslot] at hattempt
      exact hattempt rfl
    obtain ⟨before, action, after, hoccurs, hbefore, hafter, _, hreached, hlease, hstep⟩ :=
      Runs.exists_leaving_within (P := fun s => row ∈ s.rows) hall hfront hmid hrow hgone
    refine ⟨before, action, after, hoccurs, hbefore, hafter, ?_⟩
    rcases lease_ends (hholds hreached) (steps_of_step hstep) hbefore hactive
      hafter with hreleased | ⟨id, clock, rfl, horphan⟩
    · exact hreleased
    · exact absurd horphan (not_reclaimsOrphan hlease hbefore hactive)

/-- The check of `LeasesHold`. -/
def leasesHold (s : StoreState) : Action → Bool
  | .advance id _ => (s.calls id).all fun call =>
      match call.stage with
      | .reclaim nowMs _ _ => s.rows.all fun row => row.status != .active ||
          (row.ownerHost.any fun hostId => row.ownerPid.any fun pid =>
            isProcessAlive (s.running hostId) pid) &&
            row.allocatedAt.all fun allocatedAt : ℕ =>
              decide (nowMs - allocatedAt ≤ call.allocator.maxLeaseMs)
      | _ => true
  | _ => true

theorem leasesHold_of_check {s : StoreState} {action : Action} (h : leasesHold s action = true) :
    LeasesHold s action := by
  cases action with
  | advance id clock =>
    intro call hcall nowMs orphan rest hstage row hrow hactive
    simp only [leasesHold, hcall, hstage, Option.all_some, all_eq_true] at h
    have hholds := h row hrow
    simp only [hactive, bne_self_eq_false, Bool.false_or, Bool.and_eq_true, Option.any_eq_true,
      Option.all_eq_true, decide_eq_true_eq] at hholds
    obtain ⟨⟨hostId, hhost, pid, hpid, halive⟩, hage⟩ := hholds
    exact ⟨⟨hostId, pid, hhost, hpid, halive⟩, hage⟩
  | _ => trivial

def sampleProcess (pid : ℤ) : Process := ⟨pid, "host-a", "/srv/worktrees"⟩

def sampleOptions : AllocatorOptions :=
  ⟨none, .number 2, .undefined, .undefined, .undefined, .undefined⟩

/-- Two processes open a pool of two slots and take one each, in turns. -/
def sampleRun : List Action :=
  [.openWorktreeAllocator 0 (sampleProcess 100) sampleOptions,
      .openWorktreeAllocator 1 (sampleProcess 101) sampleOptions] ++
    (List.replicate 6 [Action.advance 0 0, .advance 1 0]).flatten ++
    [.acquire 2 0 (.text "a1") (.text "acme/web"), .acquire 3 1 (.text "a2") (.text "acme/web")] ++
    (List.replicate 5 [Action.advance 2 5, .advance 3 5]).flatten

/-- The first process ends, and its attempt is released while another one is about to reclaim the
slot. -/
def sampleHandover : List Action :=
  [.exit "host-a" 100, .acquire 4 1 (.text "a3") (.text "acme/web")] ++
    List.replicate 3 (.advance 4 9) ++
    .release (.text "a1") :: List.replicate 5 (.advance 4 9)

theorem slots_exclusive_sample : ∃ s₁ s₂, Runs.run step emptyStore sampleRun = some s₁ ∧
    Runs.run step s₁ sampleHandover = some s₂ ∧ countActive s₁.rows = 2 ∧
    (∀ a ∈ s₁.rows, ∀ b ∈ s₁.rows, a.status = .active → b.status = .active → a ≠ b →
      a.attemptId ≠ b.attemptId ∧ a.worktreePath ≠ b.worktreePath ∧ a.slotIndex ≠ b.slotIndex) ∧
    ∃ row ∈ s₁.rows, row.attemptId = some "a1" ∧ ∃ before action after,
      Runs.Occurs step s₁ sampleHandover before action after ∧ row ∈ before.rows ∧
        row ∉ after.rows ∧
        Releases action row := by
  have hcheck : (Runs.run step emptyStore sampleRun).any
      (fun s₁ => decide (countActive s₁.rows = 2) &&
      (Runs.run step s₁ sampleHandover).any fun s₂ => decide (∃ row ∈ s₁.rows, ∃ row' ∈ s₂.rows,
        row.attemptId = some "a1" ∧ row'.attemptId = some "a3" ∧ row.status = .active ∧
          row'.status = .active ∧ row'.slotIndex = row.slotIndex)) = true := by
    decide +kernel
  have hall : Runs.AllSteps step (fun s action => leasesHold s action = true) emptyStore
      (sampleRun ++ sampleHandover ++ []) := by
    decide +kernel
  obtain ⟨s₁, hs₁, hchecked⟩ := (Option.any_eq_true _ _).1 hcheck
  obtain ⟨hcount, hhandover⟩ := Bool.and_eq_true_iff.1 hchecked
  obtain ⟨s₂, hs₂, hrows⟩ := (Option.any_eq_true _ _).1 hhandover
  obtain ⟨row, hrow, row', hrow', hfirst, hthird, hactive, hactive', hslot⟩ :=
    of_decide_eq_true hrows
  have hrun : Runs.run step emptyStore (sampleRun ++ sampleHandover ++ []) = some s₂ :=
    (append_nil _).symm ▸ Runs.run_append.2 ⟨s₁, hs₁, hs₂⟩
  obtain ⟨-, -, -, -, -, hreleases⟩ := slots_exclusive hrun
  refine ⟨s₁, s₂, hs₁, hs₂, of_decide_eq_true hcount, (slots_exclusive hs₁).1, row,
    hrow, hfirst, ?_⟩
  refine hreleases (hall.mono fun _ _ => leasesHold_of_check) sampleRun sampleHandover [] s₁ s₂ row
    row' rfl hs₁ hs₂
    hrow hactive hrow' hactive' hslot ?_
  rw [hfirst, hthird]
  decide

end LoopOver.WorktreeAllocator
