import LoopOver.Foundations.Loop
import LoopOver.Portfolio.Queue
import Mathlib.Algebra.GroupWithZero.Nat
import Mathlib.Algebra.Order.BigOperators.Group.Finset
import Mathlib.Data.List.Dedup

/-!
# Choosing the next items

`nextEligibleItems` takes items from the queue one at a time, from a repository other than the last
one where it can, until the caps are reached.

* `Grouped` is what the buckets of the selection are: the active and the queued items of a
  repository.
* `Selecting` is the invariant of the loop, and `selectionStep_selecting` its step.
* `nextEligibleItems_holds`: for any queue of distinct items the selection is what `SelectionHolds`
  says.
* **`portfolio_selection`**: after every run of the queue operations the queue is in order, and the
  selection is what `SelectionHolds` says, for all caps.
-/

namespace LoopOver

open List

/-! ## The selection -/

structure QueueSelectionBucket where
  repoFullName : String
  activeCount : ℕ
  queuedItems : List PortfolioQueueItem
  selectedCount : ℕ

structure PortfolioCaps where
  globalWipCap : JsNumber
  perRepoWipCap : JsNumber

/-- `finiteNonNegativeInt` of this module, where infinity stands for no cap. -/
def wipCap : JsNumber → Option ℕ
  | .finite value => some (JsNumber.truncate value).toNat
  | .infinite false => none
  | _ => some 0

def isActiveItem (item : PortfolioQueueItem) : Bool := item.state = .inProgress

def isQueuedItem (item : PortfolioQueueItem) : Bool := item.state = .queued

def projectedLoad (bucket : QueueSelectionBucket) : ℕ := bucket.activeCount + bucket.selectedCount

/-- The first of those with the lowest load. -/
def lowestLoad : List QueueSelectionBucket → Option QueueSelectionBucket
  | [] => none
  | first :: rest => some (rest.foldl
      (fun winner candidate => if projectedLoad candidate < projectedLoad winner then candidate
        else winner)
      first)

/-- The bucket to take from next: another repository than the last one, if one has an item left. -/
def pickNextBucket (buckets : List QueueSelectionBucket) (lastRepoFullName : Option String) :
    Option QueueSelectionBucket :=
  let eligible := buckets.filter fun bucket => bucket.selectedCount < bucket.queuedItems.length
  let alternates := match lastRepoFullName with
    | none => eligible
    | some last => eligible.filter fun bucket => bucket.repoFullName ≠ last
  if eligible.isEmpty then none
  else lowestLoad (if alternates.isEmpty then eligible else alternates)

/-- Count an item in its bucket, which may be new. -/
def groupItem (buckets : List QueueSelectionBucket) (item : PortfolioQueueItem) :
    List QueueSelectionBucket :=
  if buckets.any fun bucket => bucket.repoFullName = item.repoFullName then
    buckets.map fun bucket =>
      if bucket.repoFullName = item.repoFullName then
        if isActiveItem item then { bucket with activeCount := bucket.activeCount + 1 }
        else { bucket with queuedItems := bucket.queuedItems ++ [item] }
      else bucket
  else
    buckets ++ [⟨item.repoFullName, if isActiveItem item then 1 else 0,
      if isQueuedItem item then [item] else [], 0⟩]

/-- The first items that fit with the active ones. -/
def withinCap (cap : Option ℕ) (active : ℕ) (items : List PortfolioQueueItem) :
    List PortfolioQueueItem :=
  match cap with
  | none => items
  | some cap => items.take (cap - active)

structure SelectionState where
  buckets : List QueueSelectionBucket
  selected : List PortfolioQueueItem
  lastRepoFullName : Option String

/-- One round of the selection. -/
def selectionStep (remaining : Option ℕ) (state : SelectionState) : SelectionState × Bool :=
  if remaining.all fun slots => state.selected.length < slots then
    match pickNextBucket state.buckets state.lastRepoFullName with
    | none => (state, true)
    | some next =>
      ({ buckets := state.buckets.map fun bucket =>
           if bucket.repoFullName = next.repoFullName then
             { bucket with selectedCount := bucket.selectedCount + 1 }
           else bucket
         selected := state.selected ++ (next.queuedItems[next.selectedCount]?).toList
         lastRepoFullName := some next.repoFullName }, false)
  else (state, true)

/-- The items that are left to select. -/
def leftToSelect (buckets : List QueueSelectionBucket) : ℕ :=
  (buckets.map fun bucket => bucket.queuedItems.length - bucket.selectedCount).sum

section Definitions

variable (rt : LawfulRuntime)

/-- The items of the queue, cleaned, as the selection sees them. -/
def normalizedItems (queue : PortfolioQueue) : List PortfolioQueueItem :=
  queue.buckets.flatMap fun bucket => bucket.items.map (normalizeItem rt)

/-- The buckets of the selection, with the queued items that fit the cap of their repository. -/
def selectionBuckets (queue : PortfolioQueue) (perRepoWipCap : Option ℕ) :
    List QueueSelectionBucket :=
  ((queue.buckets.flatMap fun bucket => bucket.items.map (normalizeItem rt)).foldl groupItem []).map
    fun bucket =>
      { bucket with queuedItems := withinCap perRepoWipCap bucket.activeCount bucket.queuedItems }

/-- The next batch. The loop takes fuel for all the items there are. -/
def nextEligibleItems (queue : PortfolioQueue) (caps : PortfolioCaps) :
    Option (List PortfolioQueueItem) :=
  let globalWipCap := wipCap caps.globalWipCap
  let perRepoWipCap := wipCap caps.perRepoWipCap
  if globalWipCap = some 0 ∨ perRepoWipCap = some 0 then some []
  else
    let buckets := selectionBuckets rt queue perRepoWipCap
    let totalActiveCount := (buckets.map QueueSelectionBucket.activeCount).sum
    let remainingGlobalSlots := globalWipCap.map fun cap => cap - totalActiveCount
    if remainingGlobalSlots = some 0 then some []
    else
      (Loop.run (selectionStep remainingGlobalSlots) (leftToSelect buckets + 1) ⟨buckets,
        [], none⟩).map
        SelectionState.selected

end Definitions

/-! ## The buckets -/

/-- The active items of a repository. -/
def activeIn (items : List PortfolioQueueItem) (repo : String) : ℕ :=
  (items.filter fun item => isActiveItem item && item.repoFullName == repo).length

/-- The queued items of a repository, oldest first. -/
def queuedIn (items : List PortfolioQueueItem) (repo : String) : List PortfolioQueueItem :=
  items.filter fun item => isQueuedItem item && item.repoFullName == repo

/-- Those of them that fit the cap of the repository. -/
def fittingIn (cap : Option ℕ) (items : List PortfolioQueueItem) (repo : String) :
    List PortfolioQueueItem :=
  withinCap cap (activeIn items repo) (queuedIn items repo)

open QueueSelectionBucket (repoFullName activeCount)

/-- The buckets hold the items by repository. -/
structure Grouped (items : List PortfolioQueueItem) (buckets : List QueueSelectionBucket) :
    Prop where
  nodup : (buckets.map repoFullName).Nodup
  bucket_eq : ∀ bucket ∈ buckets, bucket =
    ⟨bucket.repoFullName, activeIn items bucket.repoFullName, queuedIn items bucket.repoFullName, 0⟩
  covers : ∀ item ∈ items, item.repoFullName ∈ buckets.map repoFullName

variable {repo : String}

section Buckets

variable {items : List PortfolioQueueItem} {item : PortfolioQueueItem}
  {buckets : List QueueSelectionBucket}

theorem isQueuedItem_eq_not (item : PortfolioQueueItem) :
    isQueuedItem item = !isActiveItem item := by
  cases h : item.state <;> simp [isQueuedItem, isActiveItem, h]

theorem activeIn_concat (items : List PortfolioQueueItem) (item : PortfolioQueueItem)
    (repo : String) :
    activeIn (items ++ [item]) repo =
      activeIn items repo + if isActiveItem item && item.repoFullName == repo then 1 else 0 := by
  rw [activeIn, activeIn, filter_append, length_append, filter_singleton]
  cases isActiveItem item && item.repoFullName == repo <;> rfl

theorem queuedIn_concat (items : List PortfolioQueueItem) (item : PortfolioQueueItem)
    (repo : String) :
    queuedIn (items ++ [item]) repo =
      queuedIn items repo ++ if isQueuedItem item && item.repoFullName == repo then [item]
        else [] := by
  rw [queuedIn, queuedIn, filter_append, filter_singleton]
  cases isQueuedItem item && item.repoFullName == repo <;> rfl

theorem activeIn_eq_zero (h : ∀ item ∈ items, item.repoFullName ≠ repo) :
    activeIn items repo = 0 := by
  rw [activeIn, length_eq_zero_iff, filter_eq_nil_iff]
  intro item hitem hand
  exact h item hitem (beq_iff_eq.1 (Bool.and_eq_true_iff.1 hand).2)

theorem queuedIn_eq_nil (h : ∀ item ∈ items, item.repoFullName ≠ repo) :
    queuedIn items repo = [] := by
  rw [queuedIn, filter_eq_nil_iff]
  intro item hitem hand
  exact h item hitem (beq_iff_eq.1 (Bool.and_eq_true_iff.1 hand).2)

/-- The item joins the bucket of its repository. -/
theorem Grouped.join (h : Grouped items buckets)
    (hfound : ∃ found ∈ buckets, found.repoFullName = item.repoFullName) :
    Grouped (items ++ [item]) (buckets.map fun bucket =>
      if bucket.repoFullName = item.repoFullName then
        if isActiveItem item then { bucket with activeCount := bucket.activeCount + 1 }
        else { bucket with queuedItems := bucket.queuedItems ++ [item] }
      else bucket) := by
  have hkeys : ∀ bucket ∈ buckets, repoFullName
      (if bucket.repoFullName = item.repoFullName then
        if isActiveItem item then { bucket with activeCount := bucket.activeCount + 1 }
        else { bucket with queuedItems := bucket.queuedItems ++ [item] }
      else bucket) = bucket.repoFullName := by
    intro bucket _
    split
    · split <;> rfl
    · rfl
  have hmap := (map_map ..).trans (map_congr_left hkeys)
  refine ⟨hmap.symm ▸ h.nodup, fun bucket hbucket => ?_, fun other hother => hmap.symm ▸ ?_⟩
  · obtain ⟨old, hold, rfl⟩ := mem_map.1 hbucket
    rw [hkeys old hold, activeIn_concat, queuedIn_concat, isQueuedItem_eq_not, h.bucket_eq old hold]
    dsimp only
    by_cases hsame : old.repoFullName = item.repoFullName
    · rw [if_pos hsame, hsame]
      cases isActiveItem item <;> simp
    · rw [if_neg hsame]
      simp [Ne.symm hsame]
  · rcases mem_append.1 hother with hother | hother
    · exact h.covers other hother
    · obtain rfl := mem_singleton.1 hother
      exact mem_map.2 hfound

/-- The item is the first one of its repository. -/
theorem Grouped.new (h : Grouped items buckets)
    (hnew : item.repoFullName ∉ buckets.map repoFullName) :
    Grouped (items ++ [item]) (buckets ++ [⟨item.repoFullName, if isActiveItem item then 1 else 0,
      if isQueuedItem item then [item] else [], 0⟩]) := by
  have hothers : ∀ other ∈ items, other.repoFullName ≠ item.repoFullName := by
    intro other hother heq
    exact hnew (heq ▸ h.covers other hother)
  refine ⟨?_, fun bucket hbucket => ?_, fun other hother => ?_⟩
  · rw [map_append, map_singleton]
    exact h.nodup.append (nodup_singleton _) (disjoint_singleton.2 hnew)
  · rw [activeIn_concat, queuedIn_concat]
    rcases mem_append.1 hbucket with hbucket | hbucket
    · have hne : item.repoFullName ≠ bucket.repoFullName :=
        fun heq => hnew (heq ▸ mem_map_of_mem hbucket)
      simp only [beq_eq_false_iff_ne.2 hne, Bool.and_false, Bool.false_eq_true, if_false, add_zero,
        append_nil]
      exact h.bucket_eq bucket hbucket
    · obtain rfl := mem_singleton.1 hbucket
      simp [activeIn_eq_zero hothers, queuedIn_eq_nil hothers]
  · rw [map_append, map_singleton]
    rcases mem_append.1 hother with hother | hother
    · exact mem_append_left _ (h.covers other hother)
    · obtain rfl := mem_singleton.1 hother
      exact mem_append_right _ mem_cons_self

theorem groupItem_grouped (h : Grouped items buckets) :
    Grouped (items ++ [item]) (groupItem buckets item) := by
  rw [groupItem]
  split
  · next hany =>
    obtain ⟨found, hfound, hrepo⟩ := any_eq_true.1 hany
    exact h.join ⟨found, hfound, of_decide_eq_true hrepo⟩
  · next hnone =>
    refine h.new fun hmem => hnone ?_
    obtain ⟨bucket, hbucket, hrepo⟩ := mem_map.1 hmem
    exact any_eq_true.2 ⟨bucket, hbucket, decide_eq_true hrepo⟩

theorem foldl_groupItem_grouped (items : List PortfolioQueueItem) :
    Grouped items (items.foldl groupItem []) := by
  induction items using List.reverseRecOn with
  | nil => exact ⟨nodup_nil, fun _ h => absurd h not_mem_nil, fun _ h => absurd h not_mem_nil⟩
  | append_singleton items item ih =>
    rw [foldl_append]
    exact groupItem_grouped ih

/-- The buckets together have all active items. -/
theorem sum_activeCount (h : Grouped items buckets) :
    (buckets.map activeCount).sum = (items.filter isActiveItem).length := by
  have hcount : ∀ bucket ∈ buckets, bucket.activeCount =
      ((items.filter isActiveItem).map PortfolioQueueItem.repoFullName).count
        bucket.repoFullName := by
    intro bucket hbucket
    rw [congrArg activeCount (h.bucket_eq bucket hbucket), List.count,
      countP_map, countP_filter, countP_eq_length_filter]
    show activeIn items bucket.repoFullName = _
    rw [activeIn]
    refine congrArg List.length (filter_congr fun item _ => ?_)
    rw [Bool.and_comm]
    rfl
  set repos := (items.filter isActiveItem).map PortfolioQueueItem.repoFullName
  have hrepos : ∀ repo ∈ (repos : Multiset String),
      repo ∈ (buckets.map repoFullName).toFinset := by
    intro repo hrepo
    obtain ⟨item, hitem, rfl⟩ := mem_map.1 (Multiset.mem_coe.1 hrepo)
    exact mem_toFinset.2 (h.covers item (mem_of_mem_filter hitem))
  calc (buckets.map activeCount).sum
      = (buckets.map fun bucket => repos.count bucket.repoFullName).sum := by
        rw [map_congr_left hcount]
    _ = ((buckets.map repoFullName).map fun repo => repos.count repo).sum := by
        rw [map_map]
        rfl
    _ = (buckets.map repoFullName).toFinset.sum fun repo => repos.count repo :=
        (sum_toFinset _ h.nodup).symm
    _ = repos.length := by
        have hcard := Multiset.sum_count_eq_card hrepos
        simp only [Multiset.coe_count, Multiset.coe_card] at hcard
        exact hcard
    _ = (items.filter isActiveItem).length := length_map _

end Buckets

/-! ## The loop -/

section Pick

variable {buckets : List QueueSelectionBucket} {bucket : QueueSelectionBucket}
  {last : Option String}

theorem lowestLoad_mem (h : lowestLoad buckets = some bucket) : bucket ∈ buckets := by
  cases buckets with
  | nil => cases h
  | cons first rest =>
    obtain rfl := Option.some.inj h
    induction rest generalizing first with
    | nil => exact mem_cons_self
    | cons candidate rest ih =>
      rw [foldl_cons]
      split
      · exact mem_cons_of_mem _ (ih candidate rfl)
      · rcases mem_cons.1 (ih first rfl) with hfirst | hrest
        · rw [hfirst]
          exact mem_cons_self
        · exact mem_cons_of_mem _ (mem_cons_of_mem _ hrest)

theorem lowestLoad_eq_none (h : lowestLoad buckets = none) : buckets = [] := by
  cases buckets with
  | nil => rfl
  | cons first rest => cases h

/-- The bucket has an item left, and it is the last one again only when no other has. -/
theorem pickNextBucket_some (h : pickNextBucket buckets last = some bucket) :
    bucket ∈ buckets ∧ bucket.selectedCount < bucket.queuedItems.length ∧
      (last = some bucket.repoFullName → ∀ other ∈ buckets,
        other.repoFullName ≠ bucket.repoFullName →
        other.queuedItems.length ≤ other.selectedCount) := by
  unfold pickNextBucket at h
  cases last with
  | none =>
    dsimp only at h
    rw [ite_self] at h
    split at h
    · cases h
    · obtain ⟨hmem, hleft⟩ := mem_filter.1 (lowestLoad_mem h)
      exact ⟨hmem, of_decide_eq_true hleft, nofun⟩
  | some last =>
    dsimp only at h
    split at h
    · cases h
    · split at h
      · next halternates =>
        obtain ⟨hmem, hleft⟩ := mem_filter.1 (lowestLoad_mem h)
        refine ⟨hmem, of_decide_eq_true hleft, fun hlast other hother hne => ?_⟩
        rw [List.isEmpty_iff, filter_eq_nil_iff] at halternates
        by_contra hless
        refine halternates other (mem_filter.2 ⟨hother, decide_eq_true (Nat.not_le.1 hless)⟩) ?_
        exact decide_eq_true (Option.some.inj hlast ▸ hne)
      · obtain ⟨heligible, hne⟩ := mem_filter.1 (lowestLoad_mem h)
        obtain ⟨hmem, hleft⟩ := mem_filter.1 heligible
        refine ⟨hmem, of_decide_eq_true hleft, fun hlast => ?_⟩
        exact absurd (Option.some.inj hlast).symm (of_decide_eq_true hne)

theorem pickNextBucket_none (h : pickNextBucket buckets last = none) :
    ∀ other ∈ buckets, other.queuedItems.length ≤ other.selectedCount := by
  have hnil : (buckets.filter fun bucket => bucket.selectedCount < bucket.queuedItems.length) =
      [] := by
    unfold pickNextBucket at h
    dsimp only at h
    split at h
    · next hempty => exact List.isEmpty_iff.1 hempty
    · have hcandidates : ∀ eligible alternates : List QueueSelectionBucket,
          (if alternates.isEmpty then eligible else alternates) = [] → eligible = [] := by
        rintro eligible (_ | ⟨bucket, rest⟩) hnil
        · exact hnil
        · cases hnil
      exact hcandidates _ _ (lowestLoad_eq_none h)
  intro other hother
  by_contra hless
  exact filter_eq_nil_iff.1 hnil other hother (decide_eq_true (Nat.not_le.1 hless))

end Pick

/-- No item of the repository is left that fits its cap. -/
def Exhausted (cap : Option ℕ) (items selected : List PortfolioQueueItem) (repo : String) : Prop :=
  ofRepo repo selected = fittingIn cap items repo

/-- A repository comes twice in a row only when the others are exhausted. -/
def Alternates (cap : Option ℕ) (items selected : List PortfolioQueueItem) : Prop :=
  ∀ front first second, front ++ [first, second] <+: selected →
    first.repoFullName = second.repoFullName →
      ∀ repo ≠ first.repoFullName, Exhausted cap items (front ++ [first]) repo

/-- The invariant of the selection. -/
structure Selecting (cap remaining : Option ℕ) (items : List PortfolioQueueItem)
    (state : SelectionState) :
    Prop where
  nodup : (state.buckets.map repoFullName).Nodup
  queued_eq : ∀ bucket ∈ state.buckets, bucket.queuedItems = fittingIn cap items bucket.repoFullName
  covers : ∀ item ∈ items, item.repoFullName ∈ state.buckets.map repoFullName
  taken : ∀ bucket ∈ state.buckets,
    ofRepo bucket.repoFullName state.selected = bucket.queuedItems.take bucket.selectedCount
  within : ∀ bucket ∈ state.buckets, bucket.selectedCount ≤ bucket.queuedItems.length
  selected_repo : ∀ item ∈ state.selected,
    item.repoFullName ∈ state.buckets.map repoFullName
  last_eq : state.lastRepoFullName = state.selected.getLast?.map PortfolioQueueItem.repoFullName
  bounded : ∀ slots ∈ remaining, state.selected.length ≤ slots
  alternates : Alternates cap items state.selected

section Loop

variable {cap remaining : Option ℕ} {items : List PortfolioQueueItem} {state : SelectionState}
  {bucket : QueueSelectionBucket}

/-- What a round does. -/
theorem selectionStep_cases (remaining : Option ℕ) (state : SelectionState) :
    ((selectionStep remaining state).1 = state ∧ (selectionStep remaining state).2 = true ∧
      ((∃ slots ∈ remaining, slots ≤ state.selected.length) ∨
        pickNextBucket state.buckets state.lastRepoFullName = none)) ∨
    ∃ next item, pickNextBucket state.buckets state.lastRepoFullName = some next ∧
      next.queuedItems[next.selectedCount]? = some item ∧
      (∀ slots ∈ remaining, state.selected.length < slots) ∧
      selectionStep remaining state =
        ({ buckets := state.buckets.map fun bucket =>
             if bucket.repoFullName = next.repoFullName then
               { bucket with selectedCount := bucket.selectedCount + 1 }
             else bucket
           selected := state.selected ++ [item]
           lastRepoFullName := some next.repoFullName }, false) := by
  unfold selectionStep
  split
  · next hroom =>
    cases hpick : pickNextBucket state.buckets state.lastRepoFullName with
    | none => exact Or.inl ⟨rfl, rfl, Or.inr rfl⟩
    | some next =>
      obtain ⟨-, hleft, -⟩ := pickNextBucket_some hpick
      refine Or.inr ⟨next, _, rfl, List.getElem?_eq_getElem hleft, fun slots hslots => ?_, ?_⟩
      · rw [Option.mem_def.1 hslots] at hroom
        exact of_decide_eq_true hroom
      · dsimp only
        rw [List.getElem?_eq_getElem hleft, Option.toList_some]
  · next hfull =>
    refine Or.inl ⟨rfl, rfl, Or.inl ?_⟩
    cases remaining with
    | none => exact absurd rfl hfull
    | some slots => exact ⟨slots, rfl, Nat.not_lt.1 fun hless => hfull (decide_eq_true hless)⟩

theorem leftToSelect_step (remaining : Option ℕ) (state : SelectionState)
    (h : (selectionStep remaining state).2 = false) :
    leftToSelect (selectionStep remaining state).1.buckets < leftToSelect state.buckets := by
  rcases selectionStep_cases remaining state with ⟨-, hends, -⟩ | ⟨next, item, hpick, -, -, hstep⟩
  · rw [hends] at h
    cases h
  · obtain ⟨hnext, hleft, -⟩ := pickNextBucket_some hpick
    rw [hstep, leftToSelect, leftToSelect, map_map]
    refine sum_lt_sum _ _ (fun bucket _ => ?_) ⟨next, hnext, ?_⟩
    · rw [Function.comp_apply]
      split
      · dsimp only
        omega
      · exact Nat.le_refl _
    · rw [Function.comp_apply, if_pos rfl]
      dsimp only
      omega

/-- A repository whose bucket has nothing left is exhausted, and so is one without a bucket. -/
theorem exhausted_of_done (h : Selecting cap remaining items state)
    (hdone : ∀ bucket ∈ state.buckets, bucket.repoFullName = repo →
      bucket.queuedItems.length ≤ bucket.selectedCount) :
      Exhausted cap items state.selected repo := by
  by_cases hrepo : repo ∈ state.buckets.map repoFullName
  · obtain ⟨bucket, hbucket, rfl⟩ := mem_map.1 hrepo
    rw [Exhausted, h.taken bucket hbucket, take_of_length_le (hdone bucket hbucket rfl),
      h.queued_eq bucket hbucket]
  · have hitems : ∀ item ∈ items, item.repoFullName ≠ repo :=
      fun item hitem heq => hrepo (heq ▸ h.covers item hitem)
    have hselected : ofRepo repo state.selected = [] := by
      rw [ofRepo, filter_eq_nil_iff]
      intro item hitem heq
      exact hrepo (beq_iff_eq.1 heq ▸ h.selected_repo item hitem)
    rw [Exhausted, hselected, fittingIn, queuedIn_eq_nil hitems]
    cases cap with
    | none => rfl
    | some cap => exact take_nil.symm

variable {item : PortfolioQueueItem}

theorem mem_of_fittingIn {cap : Option ℕ}
    (h : item ∈ fittingIn cap items repo) : item ∈ queuedIn items repo := by
  cases cap with
  | none => exact h
  | some cap => exact mem_of_mem_take h

theorem repo_of_queuedIn (h : item ∈ queuedIn items repo) :
    item.repoFullName = repo := by
  obtain ⟨-, hand⟩ := mem_filter.1 h
  exact beq_iff_eq.1 (Bool.and_eq_true_iff.1 hand).2

/-- What a bucket is after an item was taken from the bucket `next`. -/
theorem mem_taken {next : QueueSelectionBucket} (hnodup : (state.buckets.map
      repoFullName).Nodup) (hnext : next ∈ state.buckets)
    (h : bucket ∈ state.buckets.map fun bucket =>
      if bucket.repoFullName = next.repoFullName then
        { bucket with selectedCount := bucket.selectedCount + 1 }
      else bucket) :
    bucket = { next with selectedCount := next.selectedCount + 1 } ∨
      bucket ∈ state.buckets ∧ bucket.repoFullName ≠ next.repoFullName := by
  obtain ⟨old, hold, rfl⟩ := mem_map.1 h
  by_cases heq : old.repoFullName = next.repoFullName
  · -- The bucket that is taken from is the only one of its repository.
    obtain rfl := inj_on_of_nodup_map hnodup hold hnext heq
    rw [if_pos rfl]
    exact Or.inl rfl
  · rw [if_neg heq]
    exact Or.inr ⟨hold, heq⟩

/-- Taking an item does not change which repositories have a bucket. -/
theorem map_repoFullName_taken (buckets : List QueueSelectionBucket) (next : QueueSelectionBucket) :
    (buckets.map fun bucket =>
      if bucket.repoFullName = next.repoFullName then
        { bucket with selectedCount := bucket.selectedCount + 1 }
      else bucket).map repoFullName =
        buckets.map repoFullName := by
  rw [map_map]
  refine map_congr_left fun bucket _ => ?_
  rw [Function.comp_apply]
  split <;> rfl

/-- The selection still alternates with an item of another repository, or when the others are
exhausted. -/
theorem Alternates.concat {selected : List PortfolioQueueItem}
    (h : Alternates cap items selected)
    (hagain : selected.getLast?.map PortfolioQueueItem.repoFullName = some item.repoFullName →
      ∀ repo ≠ item.repoFullName, Exhausted cap items selected repo) :
    Alternates cap items (selected ++ [item]) := by
  intro front first second hprefix hsame repo hne
  rcases prefix_concat_iff.1 hprefix with heq | hprefix
  · have hassoc : (front ++ [first]) ++ [second] = selected ++ [item] := by
      rw [← heq, append_assoc]
      rfl
    obtain ⟨rfl, hsecond⟩ := append_inj' hassoc rfl
    obtain rfl := head_eq_of_cons_eq hsecond
    refine hagain ?_ repo (hsame ▸ hne)
    rw [List.getLast?_concat, Option.map_some, hsame]
  · exact h front first second hprefix hsame repo hne

theorem selectionStep_selecting (h : Selecting cap remaining items state) :
    Selecting cap remaining items (selectionStep remaining state).1 := by
  rcases selectionStep_cases remaining state with
    ⟨hsame, -, -⟩ | ⟨next, item, hpick, hitem, hroom, hstep⟩
  · rwa [hsame]
  · obtain ⟨hnext, hleft, hlast⟩ := pickNextBucket_some hpick
    have hmem : item ∈ next.queuedItems := mem_of_getElem? hitem
    have hrepo : item.repoFullName = next.repoFullName := by
      rw [h.queued_eq next hnext] at hmem
      exact repo_of_queuedIn (mem_of_fittingIn hmem)
    have hmap := map_repoFullName_taken state.buckets next
    rw [hstep]
    refine ⟨hmap.symm ▸ h.nodup, fun bucket hbucket => ?_,
      fun other hother => hmap.symm ▸ h.covers other hother,
      fun bucket hbucket => ?_, fun bucket hbucket => ?_, fun other hother => hmap.symm ▸ ?_, ?_,
      fun slots hslots => ?_, h.alternates.concat fun hagain repo hne => ?_⟩
    · rcases mem_taken h.nodup hnext hbucket with rfl | ⟨hold, -⟩
      · exact h.queued_eq next hnext
      · exact h.queued_eq bucket hold
    · rcases mem_taken h.nodup hnext hbucket with rfl | ⟨hold, hne⟩
      · dsimp only
        rw [← hrepo, ofRepo_concat_self, hrepo, h.taken next hnext, take_add_one, hitem]
        rfl
      · rw [ofRepo_concat_ne fun heq => hne (heq.symm.trans hrepo)]
        exact h.taken bucket hold
    · rcases mem_taken h.nodup hnext hbucket with rfl | ⟨hold, -⟩
      · exact hleft
      · exact h.within bucket hold
    · rcases mem_append.1 hother with hother | hother
      · exact h.selected_repo other hother
      · rw [mem_singleton.1 hother, hrepo]
        exact mem_map_of_mem hnext
    · rw [List.getLast?_concat, Option.map_some, hrepo]
    · rw [length_append]
      exact hroom slots hslots
    · rw [← h.last_eq, hrepo] at hagain
      refine exhausted_of_done h fun bucket hbucket hbucketRepo => hlast hagain bucket hbucket ?_
      rw [hbucketRepo, ← hrepo]
      exact hne

end Loop

/-! ## What is selected -/

/-- What the batch is that is returned for the items of a queue. -/
structure SelectionHolds (caps : PortfolioCaps) (items returned : List PortfolioQueueItem) :
    Prop where
  queued : ∀ item ∈ returned, item ∈ items ∧ item.state = .queued
  ids_nodup : (returned.map PortfolioQueueItem.id).Nodup
  within_global : returned ≠ [] →
    caps.globalWipCap.Allows ((items.filter isActiveItem).length + returned.length)
  within_repo : ∀ repo, ofRepo repo returned ≠ [] →
    caps.perRepoWipCap.Allows (activeIn items repo + (ofRepo repo returned).length)
  maximal : ∀ item ∈ items, item.state = .queued → item ∉ returned →
    ¬(caps.globalWipCap.Allows ((items.filter isActiveItem).length + returned.length + 1) ∧
      caps.perRepoWipCap.Allows
        (activeIn items item.repoFullName + (ofRepo item.repoFullName returned).length + 1))
  fifo : ∀ repo, ofRepo repo returned <+: queuedIn items repo
  alternates : ∀ front first second, front ++ [first, second] <+: returned →
    first.repoFullName = second.repoFullName →
      ∀ item ∈ items, item.state = .queued → item.repoFullName ≠ first.repoFullName →
        item ∉ front ++ [first] → ¬caps.perRepoWipCap.Allows
          (activeIn items item.repoFullName +
            (ofRepo item.repoFullName (front ++ [first])).length + 1)

section Selected

variable {cap : JsNumber} {caps : PortfolioCaps} {items returned : List PortfolioQueueItem}
  {item : PortfolioQueueItem}

/-- For a count that is not zero, the cap of the source says what its argument says. -/
theorem allows_iff (cap : JsNumber) {n : ℕ} (hn : 0 < n) :
    cap.Allows n ↔ ∀ c ∈ wipCap cap, n ≤ c := by
  cases cap with
  | nan => simp [JsNumber.Allows, wipCap, Nat.ne_of_gt hn]
  | infinite negative => cases negative <;> simp [JsNumber.Allows, wipCap, Nat.ne_of_gt hn]
  | finite value =>
    simp only [JsNumber.Allows, wipCap, JsNumber.truncate, Option.mem_def, Option.some.injEq,
      forall_eq']
    split
    · rw [Int.le_toNat (by positivity), Int.le_floor, Int.cast_natCast]
    · next hneg =>
      have hceil : ⌈value⌉ ≤ 0 := Int.ceil_le.2 (by exact_mod_cast (not_le.1 hneg).le)
      have hpos : (0 : ℚ) < n := by exact_mod_cast hn
      rw [Int.toNat_of_nonpos hceil]
      constructor
      · intro hle
        exact absurd (hpos.le.trans hle) hneg
      · intro hle
        omega

theorem fittingIn_start (cap : Option ℕ) (items : List PortfolioQueueItem) (repo : String) :
    fittingIn cap items repo <+: queuedIn items repo := by
  cases cap with
  | none => exact prefix_rfl
  | some cap => exact take_prefix _ _

theorem mem_queuedIn (hitem : item ∈ items) (hstate : item.state = .queued) :
    item ∈ queuedIn items item.repoFullName := by
  refine mem_filter.2 ⟨hitem, ?_⟩
  rw [beq_self_eq_true, Bool.and_true]
  exact decide_eq_true hstate

variable {taken : List PortfolioQueueItem}

/-- What is taken from a repository fits its cap. -/
theorem allows_fittingIn (htaken : taken <+: fittingIn (wipCap cap) items repo) (hne : taken ≠ []) :
    cap.Allows (activeIn items repo + taken.length) := by
  have hpos := length_pos_of_ne_nil hne
  refine (allows_iff cap (by omega)).2 fun c hc => ?_
  have hlength := htaken.length_le
  rw [Option.mem_def.1 hc, fittingIn, withinCap, length_take] at hlength
  omega

/-- A queued item that is not among those that fit does not fit behind them. -/
theorem not_allows_of_exhausted (hitem : item ∈ items) (hstate : item.state = .queued)
    (hnot : item ∉ taken) (hdone : Exhausted (wipCap cap) items taken item.repoFullName) :
    ¬cap.Allows (activeIn items item.repoFullName +
      (ofRepo item.repoFullName taken).length + 1) := by
  have hqueued := mem_queuedIn hitem hstate
  have hnotfit : item ∉ fittingIn (wipCap cap) items item.repoFullName := by
    rw [← hdone]
    exact fun hmem => hnot (mem_of_mem_filter hmem)
  rw [allows_iff cap (Nat.succ_pos _), hdone]
  intro hall
  cases hcap : wipCap cap with
  | none =>
    rw [hcap] at hnotfit
    exact hnotfit hqueued
  | some c =>
    have hle := hall c hcap
    rw [hcap, fittingIn, withinCap] at hnotfit hle
    -- The item stands behind the cut, so the cut is where the cap is reached.
    have hcut : c - activeIn items item.repoFullName <
        (queuedIn items item.repoFullName).length := by
      by_contra hlong
      rw [take_of_length_le (Nat.not_lt.1 hlong)] at hnotfit
      exact hnotfit hqueued
    rw [length_take] at hle
    omega

/-- Per repository without repetition, and so without repetition. -/
theorem ids_nodup_of_fifo (hids : (items.map PortfolioQueueItem.id).Nodup)
    (hfifo : ∀ repo, ofRepo repo returned <+: queuedIn items repo) :
    (returned.map PortfolioQueueItem.id).Nodup := by
  have hsub : ∀ item ∈ returned, item ∈ items := by
    intro item hitem
    have hmem : item ∈ ofRepo item.repoFullName returned := mem_filter.2 ⟨hitem, beq_self_eq_true _⟩
    exact mem_of_mem_filter ((hfifo item.repoFullName).subset hmem)
  have hnodup : returned.Nodup := by
    rw [nodup_iff_count_le_one]
    intro item
    have hself : (ofRepo item.repoFullName returned).count item = returned.count item := by
      rw [ofRepo, count_filter]
      exact beq_self_eq_true _
    calc returned.count item
        = (ofRepo item.repoFullName returned).count item := hself.symm
      _ ≤ (queuedIn items item.repoFullName).count item :=
        (hfifo item.repoFullName).sublist.count_le item
      _ ≤ items.count item := filter_sublist.count_le item
      _ ≤ 1 := nodup_iff_count_le_one.1 hids.of_map item
  exact hnodup.map_on fun a ha b hb heq => inj_on_of_nodup_map hids (hsub a ha) (hsub b hb) heq

/-- Nothing is returned, and nothing fits. -/
theorem selectionHolds_nil (hfull : ∀ item ∈ items, item.state = .queued →
    ¬(caps.globalWipCap.Allows ((items.filter isActiveItem).length + 1) ∧
      caps.perRepoWipCap.Allows (activeIn items item.repoFullName + 1))) :
    SelectionHolds caps items [] where
  queued _ h := absurd h not_mem_nil
  ids_nodup := nodup_nil
  within_global h := absurd rfl h
  within_repo _ h := absurd rfl h
  maximal item hitem hstate _ := hfull item hitem hstate
  fifo _ := nil_prefix
  alternates front first second hprefix := by
    have hlength := hprefix.length_le
    rw [length_append] at hlength
    exact absurd hlength (Nat.not_succ_le_zero _)

/-- In a queue in order the items are clean. -/
theorem normalizedItems_eq {rt : LawfulRuntime} {queue : PortfolioQueue} (h : QueueHolds rt queue) :
    normalizedItems rt queue = queue.items := by
  rw [normalizedItems, PortfolioQueue.items, flatMap_def, flatMap_def]
  exact congrArg List.flatten (map_congr_left fun bucket hbucket => map_normalizeItem h hbucket)

/-- The loop starts in order. -/
theorem selecting_start (rt : LawfulRuntime) (queue : PortfolioQueue) (cap remaining : Option ℕ) :
    Selecting cap remaining (normalizedItems rt queue) ⟨selectionBuckets rt queue cap, [], none⟩ ∧
      ((selectionBuckets rt queue cap).map activeCount).sum =
        ((normalizedItems rt queue).filter isActiveItem).length := by
  have hgrouped := foldl_groupItem_grouped (normalizedItems rt queue)
  rw [selectionBuckets, ← normalizedItems]
  refine ⟨⟨?_, fun bucket hbucket => ?_, ?_, fun bucket hbucket => ?_, fun bucket hbucket => ?_,
    fun item hitem => absurd hitem not_mem_nil, rfl, fun slots _ => Nat.zero_le slots,
    fun front first second hprefix => ?_⟩, ?_⟩
  · rw [map_map]
    exact hgrouped.nodup
  · obtain ⟨old, hold, rfl⟩ := mem_map.1 hbucket
    rw [hgrouped.bucket_eq old hold]
    rfl
  · rw [map_map]
    exact hgrouped.covers
  · obtain ⟨old, hold, rfl⟩ := mem_map.1 hbucket
    rw [hgrouped.bucket_eq old hold]
    rfl
  · obtain ⟨old, hold, rfl⟩ := mem_map.1 hbucket
    rw [hgrouped.bucket_eq old hold]
    exact Nat.zero_le _
  · have hlength := hprefix.length_le
    rw [length_append] at hlength
    exact absurd hlength (Nat.not_succ_le_zero _)
  · rw [map_map]
    exact sum_activeCount hgrouped

/-- What the loop leaves behind. -/
theorem selectionHolds_of_selecting {remaining : Option ℕ} {state : SelectionState}
    (hids : (items.map PortfolioQueueItem.id).Nodup)
    (hremaining : remaining = (wipCap caps.globalWipCap).map fun cap =>
      cap - (items.filter isActiveItem).length)
    (hroom : remaining ≠ some 0) (h : Selecting (wipCap caps.perRepoWipCap) remaining items state)
    (hends : (∃ slots ∈ remaining, slots ≤ state.selected.length) ∨
      pickNextBucket state.buckets state.lastRepoFullName = none) :
    SelectionHolds caps items state.selected := by
  have htaken : ∀ repo,
      ofRepo repo state.selected <+: fittingIn (wipCap caps.perRepoWipCap) items repo := by
    intro repo
    by_cases hrepo : repo ∈ state.buckets.map repoFullName
    · obtain ⟨bucket, hbucket, rfl⟩ := mem_map.1 hrepo
      rw [h.taken bucket hbucket, ← h.queued_eq bucket hbucket]
      exact take_prefix _ _
    · have hdone : Exhausted (wipCap caps.perRepoWipCap) items state.selected repo :=
        exhausted_of_done h fun bucket hbucket heq => absurd (heq ▸ mem_map_of_mem hbucket) hrepo
      rw [hdone]
  have hfifo : ∀ repo, ofRepo repo state.selected <+: queuedIn items repo :=
    fun repo => (htaken repo).trans (fittingIn_start _ items repo)
  refine ⟨fun item hitem => ?_, ids_nodup_of_fifo hids hfifo, fun hne => ?_, fun repo hne => ?_,
    fun item hitem hstate hnot => ?_, hfifo, ?_⟩
  · have hmem : item ∈ ofRepo item.repoFullName state.selected :=
      mem_filter.2 ⟨hitem, beq_self_eq_true _⟩
    obtain ⟨hitems, hand⟩ := mem_filter.1 ((hfifo item.repoFullName).subset hmem)
    exact ⟨hitems, of_decide_eq_true (Bool.and_eq_true_iff.1 hand).1⟩
  · have hpos := length_pos_of_ne_nil hne
    refine (allows_iff _ (by omega)).2 fun cap hcap => ?_
    rw [Option.mem_def.1 hcap, Option.map_some] at hremaining
    have hbounded := h.bounded _ hremaining
    omega
  · exact allows_fittingIn (htaken repo) hne
  · rintro ⟨hglobal, hrepo⟩
    rcases hends with ⟨slots, hslots, hfull⟩ | hnone
    · rw [Option.mem_def.1 hslots] at hremaining hroom
      obtain ⟨cap, hcap, rfl⟩ := Option.map_eq_some_iff.1 hremaining.symm
      have hle := (allows_iff _ (Nat.succ_pos _)).1 hglobal cap hcap
      have hne : cap - (items.filter isActiveItem).length ≠ 0 :=
        fun heq => hroom (congrArg some heq)
      omega
    · refine not_allows_of_exhausted hitem hstate hnot ?_ hrepo
      exact exhausted_of_done h fun bucket hbucket _ => pickNextBucket_none hnone bucket hbucket
  · intro front first second hprefix hsame item hitem hstate hother hnot
    exact not_allows_of_exhausted hitem hstate hnot
      (h.alternates front first second hprefix hsame item.repoFullName hother)

end Selected

/-- **The selection**, for any queue of distinct items. -/
theorem nextEligibleItems_holds (rt : LawfulRuntime) (queue : PortfolioQueue) (caps : PortfolioCaps)
    (hids : ((normalizedItems rt queue).map PortfolioQueueItem.id).Nodup) :
    ∃ returned, nextEligibleItems rt queue caps = some returned ∧
      SelectionHolds caps (normalizedItems rt queue) returned := by
  unfold nextEligibleItems
  dsimp only
  split
  · next hzero =>
    refine ⟨[], rfl, selectionHolds_nil fun item _ _ => ?_⟩
    rintro ⟨hglobal, hrepo⟩
    rcases hzero with hzero | hzero
    · exact Nat.not_succ_le_zero _ ((allows_iff _ (Nat.succ_pos _)).1 hglobal 0 hzero)
    · exact Nat.not_succ_le_zero _ ((allows_iff _ (Nat.succ_pos _)).1 hrepo 0 hzero)
  · set remaining := (wipCap caps.globalWipCap).map fun cap =>
      cap - ((selectionBuckets rt queue (wipCap caps.perRepoWipCap)).map
        activeCount).sum with hremaining
    obtain ⟨hstart, hactive⟩ := selecting_start rt queue (wipCap caps.perRepoWipCap) remaining
    rw [hactive] at hremaining
    split
    · next hfull =>
      refine ⟨[], rfl, selectionHolds_nil fun item _ _ => ?_⟩
      rintro ⟨hglobal, -⟩
      rw [hremaining] at hfull
      obtain ⟨cap, hcap, hcapZero⟩ := Option.map_eq_some_iff.1 hfull
      have hle := (allows_iff _ (Nat.succ_pos _)).1 hglobal cap hcap
      omega
    · next hroom =>
      obtain ⟨final, hrun⟩ := Loop.exists_run_eq
        (s := ⟨selectionBuckets rt queue (wipCap caps.perRepoWipCap), [], none⟩)
          (selectionStep remaining)
        (fun state => leftToSelect state.buckets) (leftToSelect_step remaining) (Nat.lt_succ_self _)
      obtain ⟨last, hlast, hends, hfinal⟩ :=
        Loop.run_last (fun _ hstate => selectionStep_selecting hstate) hrun hstart
      refine ⟨final.selected, congrArg (Option.map SelectionState.selected) hrun, ?_⟩
      rcases selectionStep_cases remaining last with ⟨hsame, -, hwhy⟩ | ⟨_, _, -, -, -, hstep⟩
      · rw [← hfinal, hsame]
        exact selectionHolds_of_selecting hids hremaining hroom hlast hwhy
      · rw [hstep] at hends
        cases hends

/-- **The queue and the selection.** After every run of the queue operations, and for all caps. -/
theorem portfolio_selection (rt : LawfulRuntime) (ops : List PortfolioOp) (caps : PortfolioCaps) :
    QueueHolds rt (runPortfolio rt ops) ∧
      (∀ repo, (ofRepo repo (runPortfolio rt ops).items).Sublist (arrivals rt ops)) ∧
      ∃ returned, nextEligibleItems rt (runPortfolio rt ops) caps = some returned ∧
        SelectionHolds caps (runPortfolio rt ops).items returned := by
  have hqueue := runPortfolio_holds rt ops
  refine ⟨hqueue, runPortfolio_fifo rt ops, ?_⟩
  have hitems := normalizedItems_eq hqueue
  have hids : ((normalizedItems rt (runPortfolio rt ops)).map PortfolioQueueItem.id).Nodup := by
    rw [hitems]
    exact hqueue.map_id_nodup
  obtain ⟨returned, hreturned, hholds⟩ := nextEligibleItems_holds rt (runPortfolio rt ops) caps hids
  rw [hitems] at hholds
  exact ⟨returned, hreturned, hholds⟩

/-- Three items of one repository and one of another, in the order they come in. -/
def portfolioOps : List PortfolioOp :=
  [.enqueue ⟨"a1 ", "Acme/Web", .queued⟩, .enqueue ⟨"a1", "acme/web", .queued⟩,
    .enqueue ⟨"a2", " acme/web", .queued⟩, .enqueue ⟨"b1", "acme/api", .queued⟩,
    .enqueue ⟨"a3", "acme/web", .queued⟩]

/-- The selection alternates, and the cap of a repository leaves its third item behind. -/
theorem portfolio_selection_alternates :
    nextEligibleItems asciiLawful (runPortfolio asciiLawful portfolioOps) ⟨.infinite false, 2⟩ =
        some [⟨"a1", "acme/web", .queued⟩, ⟨"b1", "acme/api", .queued⟩,
          ⟨"a2", "acme/web", .queued⟩] ∧
      QueueHolds asciiLawful (runPortfolio asciiLawful portfolioOps) :=
  ⟨by decide +kernel, (portfolio_selection asciiLawful portfolioOps ⟨.infinite false, 2⟩).1⟩

end LoopOver
