import LoopOver.Foundations.PosixPath
import LoopOver.Number
import LoopOver.Text
import Mathlib.Data.List.DropRight
import Mathlib.Data.List.Nodup

/-!
# The pool of worktrees

Every attempt of the miner works in a git worktree of its own. `worktree-plan.ts` of
`packages/loopover-engine/src/miner` names the worktree and its branch after a slug of the attempt
id, and `worktree-pool.ts` hands the worktrees out under a cap.

* `slugifyAttemptId_plain`: a slug is one segment of a path, so that worktrees with different slugs
  have different paths (`planWorktree_ne`).
* `run_bounded`, `run_ids_nodup`: the cap holds, and no attempt has two worktrees.
* **`worktree_pool_isolated_iff`**: the worktrees on one repository stay apart exactly in the runs
  in which every admitted id has a slug of its own there.
* `worktree_pool_shares` is a run with two ids in one worktree.
-/

namespace LoopOver

open List

/-! ## Plans -/

structure WorktreePlan where
  attemptId : String
  worktreePath : String
  branchName : String
  deriving DecidableEq

/-- `[a-z0-9._-]`. -/
def isSlugChar (c : Char) : Bool := c.isLower || c.isDigit || ['.', '_', '-'].contains c

/-- `[-.]`. -/
def isSlugEdge (c : Char) : Bool := ['-', '.'].contains c

/-- Every run of other characters becomes one dash; `inRun` tells that the dash is already there. -/
def collapseRuns : Bool → List Char → List Char
  | _, [] => []
  | inRun, c :: rest =>
    if isSlugChar c then c :: collapseRuns false rest
    else if inRun then collapseRuns true rest
    else '-' :: collapseRuns true rest

/-- Without the dashes and dots at either end. -/
def trimSlugEdges (slug : List Char) : List Char :=
  (slug.dropWhile isSlugEdge).rdropWhile isSlugEdge

section Definitions

variable (rt : Runtime)

/-- The slug of an attempt id; an id without one is an error. -/
def slugifyAttemptId (attemptId : String) : Except String (List Char) :=
  let slug := collapseRuns false (rt.toLowerCase (rt.trim attemptId)).toList
  let slug := trimSlugEdges ((trimSlugEdges slug).take 64)
  if slug = [] then .error "invalid_attempt_id" else .ok slug

def worktreeSubdir : String := ".loopover-worktrees"

def worktreeBranchPrefix : String := "loopover/attempt/"

/-- The plan of the worktree with a given slug. -/
def worktreeAt (repoPath attemptId : String) (slug : List Char) : WorktreePlan where
  attemptId := attemptId
  worktreePath := String.ofList (PosixPath.join [repoPath.toList, worktreeSubdir.toList, slug])
  branchName := worktreeBranchPrefix ++ String.ofList slug

def planWorktree (repoPath attemptId : String) : Except String WorktreePlan :=
  (slugifyAttemptId rt attemptId).map (worktreeAt repoPath attemptId)

/-! ## The pool -/

structure WorktreeAllocation where
  attemptId : String
  repoPath : String
  plan : WorktreePlan
  deriving DecidableEq

structure WorktreePoolState where
  allocations : List WorktreeAllocation
  deriving DecidableEq

def emptyWorktreePool : WorktreePoolState := ⟨[]⟩

/-- Why there is no worktree. -/
inductive AcquireFailure
  | alreadyAllocated
  | atCapacity
  deriving DecidableEq

inductive AcquireWorktreeResult
  | ok (state : WorktreePoolState) (allocation : WorktreeAllocation)
  | failed (reason : AcquireFailure) (state : WorktreePoolState)

def AcquireWorktreeResult.state : AcquireWorktreeResult → WorktreePoolState
  | ok state _ => state
  | failed _ state => state

def isWorktreeAllocated (state : WorktreePoolState) (attemptId : String) : Bool :=
  state.allocations.any fun allocation => allocation.attemptId == attemptId

/-- Take a slot for an attempt. An id without a slug throws. -/
def acquireWorktree (maxConcurrency : JsNumber) (state : WorktreePoolState)
    (attemptId repoPath : String) : Except String AcquireWorktreeResult :=
  if isWorktreeAllocated state attemptId then .ok (.failed .alreadyAllocated state)
  else if maxConcurrency.finiteNonNegativeInt ≤ state.allocations.length then
    .ok (.failed .atCapacity state)
  else
    (planWorktree rt repoPath attemptId).map fun plan =>
      .ok ⟨state.allocations ++ [⟨attemptId, repoPath, plan⟩]⟩ ⟨attemptId, repoPath, plan⟩

def releaseWorktree (state : WorktreePoolState) (attemptId : String) : WorktreePoolState :=
  let allocations := state.allocations.filter fun allocation => allocation.attemptId != attemptId
  if allocations.length = state.allocations.length then state else ⟨allocations⟩

/-- Free the slots of the attempts that are not live, and report them. -/
def reclaimOrphanedWorktrees (state : WorktreePoolState) (liveAttemptIds : List String) :
    WorktreePoolState × List WorktreeAllocation :=
  let reclaimed :=
    state.allocations.filter fun allocation => !liveAttemptIds.contains allocation.attemptId
  let remaining :=
    state.allocations.filter fun allocation => liveAttemptIds.contains allocation.attemptId
  (if reclaimed.length = 0 then state else ⟨remaining⟩, reclaimed)

/-- What callers do to the pool. -/
inductive WorktreeOp
  | acquire (attemptId repoPath : String)
  | release (attemptId : String)
  | reclaim (liveAttemptIds : List String)
  deriving DecidableEq

/-- The state after an operation: the one it returns, and the old one when it throws. -/
def WorktreePoolState.step (maxConcurrency : JsNumber) (state : WorktreePoolState) :
    WorktreeOp → WorktreePoolState
  | .acquire attemptId repoPath =>
    match acquireWorktree rt maxConcurrency state attemptId repoPath with
    | .ok result => result.state
    | .error _ => state
  | .release attemptId => releaseWorktree state attemptId
  | .reclaim liveAttemptIds => (reclaimOrphanedWorktrees state liveAttemptIds).1

/-- The state after a sequence of operations on the empty pool. -/
def runWorktreePool (maxConcurrency : JsNumber) (ops : List WorktreeOp) : WorktreePoolState :=
  ops.foldl (WorktreePoolState.step rt maxConcurrency) emptyWorktreePool

end Definitions

/-! ## Slugs are segments -/

section Slugs

variable {rt : Runtime}

theorem isSlugChar_of_mem_collapseRuns {inRun : Bool} {text : List Char} {c : Char}
    (h : c ∈ collapseRuns inRun text) : isSlugChar c = true := by
  induction text generalizing inRun with
  | nil => exact absurd h not_mem_nil
  | cons d text ih =>
    rw [collapseRuns] at h
    split at h
    · next hd =>
      rcases mem_cons.1 h with rfl | h
      · exact hd
      · exact ih h
    · split at h
      · exact ih h
      · rcases mem_cons.1 h with rfl | h
        · decide
        · exact ih h

theorem mem_of_mem_trimSlugEdges {slug : List Char} {c : Char} (h : c ∈ trimSlugEdges slug) :
    c ∈ slug :=
  (dropWhile_sublist _).subset ((List.rdropWhile_prefix _ _).subset h)

/-- A trimmed slug starts with neither a dash nor a dot. -/
theorem head_trimSlugEdges {slug rest : List Char} {c : Char} (h : trimSlugEdges slug = c :: rest) :
    isSlugEdge c = false := by
  obtain ⟨tail, htail⟩ := rdropWhile_prefix isSlugEdge (slug.dropWhile isSlugEdge)
  have hhead : (slug.dropWhile isSlugEdge).head? = some c := by
    rw [← htail]
    unfold trimSlugEdges at h
    rw [h]
    rfl
  have hnot := List.head?_dropWhile_not isSlugEdge slug
  rw [hhead] at hnot
  simpa using hnot

theorem slugifyAttemptId_plain {attemptId : String} {slug : List Char}
    (h : slugifyAttemptId rt attemptId = .ok slug) : PosixPath.Plain slug := by
  unfold slugifyAttemptId at h
  dsimp only at h
  split at h
  · cases h
  · next hne =>
    obtain rfl := Except.ok.inj h
    have hchar : ∀ c ∈ trimSlugEdges ((trimSlugEdges (collapseRuns false
        (rt.toLowerCase (rt.trim attemptId)).toList)).take 64), isSlugChar c = true := by
      intro c hc
      have hmem := mem_of_mem_take (mem_of_mem_trimSlugEdges hc)
      exact isSlugChar_of_mem_collapseRuns (mem_of_mem_trimSlugEdges hmem)
    refine ⟨hne, fun hslash => ?_, fun hdot => ?_, fun hdots => ?_⟩
    · exact absurd (hchar _ hslash) (by decide)
    · exact absurd (head_trimSlugEdges hdot) (by decide)
    · exact absurd (head_trimSlugEdges hdots) (by decide)

theorem worktreeSubdir_plain : PosixPath.Plain worktreeSubdir.toList := by
  refine ⟨?_, ?_, ?_, ?_⟩ <;> decide

/-- On one repository, slugs, paths and branches differ together. -/
theorem worktreeAt_ne_iff (repoPath attemptId attemptId' : String) {slug slug' : List Char}
    (hslug : PosixPath.Plain slug) (hslug' : PosixPath.Plain slug') :
    ((worktreeAt repoPath attemptId slug).worktreePath ≠
      (worktreeAt repoPath attemptId' slug').worktreePath ∧
      (worktreeAt repoPath attemptId slug).branchName ≠
        (worktreeAt repoPath attemptId' slug').branchName) ↔
      slug ≠ slug' := by
  constructor
  · rintro ⟨-, hbranch⟩ rfl
    exact hbranch rfl
  · intro hne
    refine ⟨fun hpath => hne ?_, fun hbranch => hne ?_⟩
    · exact PosixPath.join_injective _ worktreeSubdir_plain hslug hslug'
        (String.ofList_injective hpath)
    · exact String.ofList_injective (String.append_right_inj _ |>.1 hbranch)

end Slugs

/-! ## One step of the pool -/

section Pool

variable {rt : Runtime} {cap : JsNumber} {state state' : WorktreePoolState} {op : WorktreeOp}
  {attemptId repoPath : String} {slug : List Char} {ops : List WorktreeOp} {reason : AcquireFailure}

/-- The attempt holds no slot, and one is free. -/
def Admits (cap : JsNumber) (state : WorktreePoolState) (attemptId : String) : Prop :=
  isWorktreeAllocated state attemptId = false ∧ state.allocations.length < cap.finiteNonNegativeInt

/-- The allocation of an attempt with a given slug. -/
def allocationOf (attemptId repoPath : String) (slug : List Char) : WorktreeAllocation :=
  ⟨attemptId, repoPath, worktreeAt repoPath attemptId slug⟩

/-- The state with one more worktree. -/
def WorktreePoolState.withWorktree (state : WorktreePoolState) (attemptId repoPath : String)
    (slug : List Char) : WorktreePoolState :=
  ⟨state.allocations ++ [allocationOf attemptId repoPath slug]⟩

theorem acquireWorktree_admitted (hadmits : Admits cap state attemptId)
    (hslug : slugifyAttemptId rt attemptId = .ok slug) :
    acquireWorktree rt cap state attemptId repoPath =
      .ok (.ok (state.withWorktree attemptId repoPath slug)
        (allocationOf attemptId repoPath slug)) := by
  rw [acquireWorktree, if_neg (by simp [hadmits.1]), if_neg (by have := hadmits.2; omega),
    planWorktree, hslug]
  rfl

/-- What an acquire can do: fail with the old state, throw, or take a slot. -/
theorem acquireWorktree_cases (rt : Runtime) (cap : JsNumber) (state : WorktreePoolState)
    (attemptId repoPath : String) :
    (∃ reason, acquireWorktree rt cap state attemptId repoPath = .ok (.failed reason state)) ∨
      (∃ message, acquireWorktree rt cap state attemptId repoPath = .error message) ∨
      ∃ slug, Admits cap state attemptId ∧ slugifyAttemptId rt attemptId = .ok slug ∧
        acquireWorktree rt cap state attemptId repoPath =
          .ok (.ok (state.withWorktree attemptId repoPath slug)
          (allocationOf attemptId repoPath slug)) := by
  by_cases hallocated : isWorktreeAllocated state attemptId = true
  · exact Or.inl ⟨.alreadyAllocated, by rw [acquireWorktree, if_pos hallocated]⟩
  · by_cases hfull : cap.finiteNonNegativeInt ≤ state.allocations.length
    · exact Or.inl ⟨.atCapacity, by rw [acquireWorktree, if_neg hallocated, if_pos hfull]⟩
    · have hadmits : Admits cap state attemptId := ⟨by simpa using hallocated, by omega⟩
      cases hslug : slugifyAttemptId rt attemptId with
      | error message =>
        refine Or.inr (Or.inl ⟨message, ?_⟩)
        rw [acquireWorktree, if_neg hallocated, if_neg hfull, planWorktree, hslug]
        rfl
      | ok slug =>
        exact Or.inr (Or.inr ⟨slug, hadmits, rfl, acquireWorktree_admitted hadmits hslug⟩)

/-- A step takes one slot, or frees some. -/
theorem step_cases (rt : Runtime) (cap : JsNumber) (state : WorktreePoolState) (op : WorktreeOp) :
    (state.step rt cap op).allocations.Sublist state.allocations ∨
      ∃ attemptId repoPath slug, op = .acquire attemptId repoPath ∧ Admits cap state attemptId ∧
        slugifyAttemptId rt attemptId = .ok slug ∧
        state.step rt cap op = state.withWorktree attemptId repoPath slug := by
  cases op with
  | acquire attemptId repoPath =>
    rcases acquireWorktree_cases rt cap state attemptId repoPath with
      ⟨reason, h⟩ | ⟨message, h⟩ | ⟨slug, hadmits, hslug, h⟩
    · left
      rw [WorktreePoolState.step, h]
      exact List.Sublist.refl _
    · left
      rw [WorktreePoolState.step, h]
    · right
      refine ⟨attemptId, repoPath, slug, rfl, hadmits, hslug, ?_⟩
      rw [WorktreePoolState.step, h]
      rfl
  | release attemptId =>
    left
    rw [WorktreePoolState.step, releaseWorktree]
    split
    · exact List.Sublist.refl _
    · exact filter_sublist
  | reclaim liveAttemptIds =>
    left
    rw [WorktreePoolState.step, reclaimOrphanedWorktrees]
    dsimp only
    split
    · exact List.Sublist.refl _
    · exact filter_sublist

/-! ## Runs -/

/-- A run reaches its states one by one. -/
theorem run_take_succ (k : ℕ) (h : ops[k]? = some op) :
    runWorktreePool rt cap (ops.take (k + 1)) =
      (runWorktreePool rt cap (ops.take k)).step rt cap op := by
  rw [take_add_one, h, runWorktreePool, foldl_append]
  rfl

/-- What holds of the empty pool and is kept by the steps of a run holds in all states it
reaches. -/
theorem run_induction {P : WorktreePoolState → Prop} (hempty : P emptyWorktreePool)
    (hstep : ∀ k op, ops[k]? = some op → P (runWorktreePool rt cap (ops.take k)) →
      P ((runWorktreePool rt cap (ops.take k)).step rt cap op)) (k : ℕ) :
    P (runWorktreePool rt cap (ops.take k)) := by
  induction k with
  | zero => exact hempty
  | succ k ih =>
    cases hop : ops[k]? with
    | none =>
      rw [take_add_one, hop, Option.toList_none, append_nil]
      exact ih
    | some op =>
      rw [run_take_succ k hop]
      exact hstep k op hop ih

theorem run_bounded (ops : List WorktreeOp) (k : ℕ) :
    (runWorktreePool rt cap (ops.take k)).allocations.length ≤ cap.finiteNonNegativeInt := by
  refine run_induction (P := fun state => state.allocations.length ≤ cap.finiteNonNegativeInt)
    (Nat.zero_le _) (fun k op _ ih => ?_) k
  rcases step_cases rt cap (runWorktreePool rt cap (ops.take k)) op with
    hsub | ⟨attemptId, repoPath, slug, -, hadmits, -, hstate⟩
  · exact hsub.length_le.trans ih
  · have hfree := hadmits.2
    rw [hstate, WorktreePoolState.withWorktree, length_append, length_singleton]
    omega

theorem run_ids_nodup (ops : List WorktreeOp) (k : ℕ) :
    ((runWorktreePool rt cap (ops.take k)).allocations.map WorktreeAllocation.attemptId).Nodup := by
  refine run_induction
    (P := fun state => (state.allocations.map WorktreeAllocation.attemptId).Nodup)
    nodup_nil (fun k op _ ih => ?_) k
  rcases step_cases rt cap (runWorktreePool rt cap (ops.take k)) op with
    hsub | ⟨attemptId, repoPath, slug, -, hadmits, -, hstate⟩
  · exact (hsub.map _).nodup ih
  · rw [hstate, WorktreePoolState.withWorktree, map_append, map_singleton]
    refine ih.append (nodup_singleton _) (disjoint_singleton.2 fun hmem => ?_)
    obtain ⟨allocation, hallocation, hid⟩ := mem_map.1 hmem
    have hallocated : isWorktreeAllocated (runWorktreePool rt cap (ops.take k)) attemptId = true :=
      any_eq_true.2 ⟨allocation, hallocation, beq_iff_eq.2 hid⟩
    rw [hadmits.1] at hallocated
    cases hallocated

/-- The worktree of an allocation is the one planned for its id. -/
def WorktreeAllocation.Planned (rt : Runtime) (allocation : WorktreeAllocation) : Prop :=
  ∃ slug, slugifyAttemptId rt allocation.attemptId = .ok slug ∧
    allocation.plan = worktreeAt allocation.repoPath allocation.attemptId slug

theorem allocationOf_planned (hslug : slugifyAttemptId rt attemptId = .ok slug) :
    (allocationOf attemptId repoPath slug).Planned rt := ⟨slug, hslug, rfl⟩

theorem run_planned (ops : List WorktreeOp) (k : ℕ) :
    ∀ allocation ∈ (runWorktreePool rt cap (ops.take k)).allocations, allocation.Planned rt := by
  refine run_induction (P := fun state => ∀ allocation ∈ state.allocations, allocation.Planned rt)
    (fun _ h => absurd h not_mem_nil) (fun k op _ ih => ?_) k
  rcases step_cases rt cap (runWorktreePool rt cap (ops.take k)) op with
    hsub | ⟨attemptId, repoPath, slug, -, -, hslug, hstate⟩
  · intro allocation hmem
    exact ih allocation (hsub.subset hmem)
  · rw [hstate]
    intro allocation hmem
    rcases mem_append.1 hmem with hmem | hmem
    · exact ih allocation hmem
    · obtain rfl := mem_singleton.1 hmem
      exact allocationOf_planned hslug

/-! ## Isolation -/

/-- The two have different paths and branches, if they are on one repository. -/
def Apart (a b : WorktreeAllocation) : Prop :=
  a.repoPath = b.repoPath →
    a.plan.worktreePath ≠ b.plan.worktreePath ∧ a.plan.branchName ≠ b.plan.branchName

/-- What a pool is to keep. -/
structure PoolHolds (rt : Runtime) (cap : JsNumber) (state : WorktreePoolState) : Prop where
  bounded : state.allocations.length ≤ cap.finiteNonNegativeInt
  ids_nodup : (state.allocations.map WorktreeAllocation.attemptId).Nodup
  failed_unchanged : ∀ attemptId repoPath reason state',
    acquireWorktree rt cap state attemptId repoPath = .ok (.failed reason state') → state' = state
  isolated : state.allocations.Pairwise Apart

/-- An attempt that is admitted has a slug different from those in use on its repository. -/
def SlugFree (rt : Runtime) (cap : JsNumber) (state : WorktreePoolState)
    (attemptId repoPath : String) :
    Prop :=
  Admits cap state attemptId → ∀ allocation ∈ state.allocations, allocation.repoPath = repoPath →
    slugifyAttemptId rt allocation.attemptId ≠ slugifyAttemptId rt attemptId

theorem apart_iff {a b : WorktreeAllocation} (ha : a.Planned rt) (hb : b.Planned rt)
    (hrepo : a.repoPath = b.repoPath) :
    Apart a b ↔ slugifyAttemptId rt a.attemptId ≠ slugifyAttemptId rt b.attemptId := by
  obtain ⟨slug, hslug, hplan⟩ := ha
  obtain ⟨slug', hslug', hplan'⟩ := hb
  have hne := worktreeAt_ne_iff b.repoPath a.attemptId b.attemptId (slugifyAttemptId_plain hslug)
    (slugifyAttemptId_plain hslug')
  rw [hslug, hslug', Apart, hplan, hplan', hrepo, forall_prop_of_true rfl, hne, Ne, Ne,
    Except.ok.injEq]

theorem failed_unchanged
    (h : acquireWorktree rt cap state attemptId repoPath = .ok (.failed reason state')) :
    state' = state := by
  rcases acquireWorktree_cases rt cap state attemptId repoPath with
    ⟨reason, hcase⟩ | ⟨message, hcase⟩ | ⟨slug, -, -, hcase⟩
  · cases hcase.symm.trans h
    rfl
  · cases hcase.symm.trans h
  · cases hcase.symm.trans h

/-- One step keeps the worktrees apart when the slug of an admitted id is free. -/
theorem step_isolated (hplanned : ∀ allocation ∈ state.allocations, allocation.Planned rt)
    (hfree : ∀ attemptId repoPath, op = .acquire attemptId repoPath →
      SlugFree rt cap state attemptId repoPath)
    (h : state.allocations.Pairwise Apart) : (state.step rt cap op).allocations.Pairwise Apart := by
  rcases step_cases rt cap state op with
    hsub | ⟨attemptId, repoPath, slug, hop, hadmits, hslug, hstate⟩
  · exact h.sublist hsub
  · rw [hstate, WorktreePoolState.withWorktree, pairwise_append]
    refine ⟨h, pairwise_singleton _ _, fun a ha b hb => ?_⟩
    obtain rfl := mem_singleton.1 hb
    intro hrepo
    have hslugs := hfree attemptId repoPath hop hadmits a ha hrepo
    exact (apart_iff (hplanned a ha) (allocationOf_planned hslug) hrepo).2 hslugs hrepo

/-- An admitted id whose slug is in use ends the isolation. -/
theorem slugFree_of_isolated (hplanned : ∀ allocation ∈ state.allocations, allocation.Planned rt)
    (h : (state.step rt cap (.acquire attemptId repoPath)).allocations.Pairwise Apart) :
    SlugFree rt cap state attemptId repoPath := by
  intro hadmits a ha hrepo
  cases hslug : slugifyAttemptId rt attemptId with
  | error message =>
    obtain ⟨slug, ha, -⟩ := hplanned a ha
    rw [ha]
    rintro ⟨⟩
  | ok slug =>
    rw [WorktreePoolState.step, acquireWorktree_admitted hadmits hslug] at h
    have hapart := (pairwise_append.1 h).2.2 a ha _ (mem_singleton_self _)
    rw [← hslug]
    exact (apart_iff (hplanned a ha) (allocationOf_planned hslug) hrepo).1 hapart

end Pool

/-- **When the pool keeps the attempts apart.** The cap, the ids and failed acquires are as they
should be in every state of every run, and the worktrees are isolated in all of them exactly when
the slug of every admitted id is free on its repository. -/
theorem worktree_pool_isolated_iff (rt : Runtime) (cap : JsNumber) (ops : List WorktreeOp) :
    (∀ k, PoolHolds rt cap (runWorktreePool rt cap (ops.take k))) ↔
      ∀ k attemptId repoPath, ops[k]? = some (.acquire attemptId repoPath) →
        SlugFree rt cap (runWorktreePool rt cap (ops.take k)) attemptId repoPath := by
  constructor
  · intro h k attemptId repoPath hop
    have hnext := (h (k + 1)).isolated
    rw [run_take_succ k hop] at hnext
    exact slugFree_of_isolated (run_planned ops k) hnext
  · intro h k
    refine ⟨run_bounded ops k, run_ids_nodup ops k, fun _ _ _ _ => failed_unchanged, ?_⟩
    refine run_induction (P := fun state => state.allocations.Pairwise Apart) List.Pairwise.nil
      (fun k op hop ih => ?_) k
    refine step_isolated (run_planned ops k) (fun attemptId repoPath hacquire => ?_) ih
    rw [hacquire] at hop
    exact h k attemptId repoPath hop

/-- Two ids that differ in case share a worktree and a branch. -/
theorem worktree_pool_shares :
    ¬PoolHolds asciiRuntime 2 (runWorktreePool asciiRuntime 2
      [.acquire "Fix-12" "/srv/repo", .acquire "fix-12" "/srv/repo"]) := by
  intro h
  have hstate : runWorktreePool asciiRuntime 2
      [.acquire "Fix-12" "/srv/repo", .acquire "fix-12" "/srv/repo"] =
        ⟨[⟨"Fix-12", "/srv/repo", "Fix-12", "/srv/repo/.loopover-worktrees/fix-12",
          "loopover/attempt/fix-12"⟩,
          ⟨"fix-12", "/srv/repo", "fix-12", "/srv/repo/.loopover-worktrees/fix-12",
            "loopover/attempt/fix-12"⟩]⟩ := by
    decide +kernel
  have hisolated := h.isolated
  rw [hstate] at hisolated
  exact ((pairwise_pair.1 hisolated) rfl).1 rfl

end LoopOver
