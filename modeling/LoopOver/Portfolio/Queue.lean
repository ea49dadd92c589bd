import LoopOver.Number
import LoopOver.Text
import Mathlib.Data.List.Nodup

/-!
# The portfolio queue

`packages/loopover-engine/src/portfolio/queue.ts` keeps the miner's work in buckets, one for each
repository. Ids are trimmed and repository names are trimmed and put in lower case, on the way in
and again wherever they are compared.

* `enqueueItem_cases` says what becomes of a new item.
* `QueueHolds` is what every run of them keeps (`runPortfolio_holds`): distinct ids, distinct
  repositories, no empty bucket, and clean items in their own bucket.
* `runPortfolio_fifo`: the items of a repository stand in the order they came in.
-/

namespace LoopOver

open List

/-! ## Data -/

/-- Where an item stands. -/
inductive PortfolioQueueItemState
  | queued
  | inProgress
  deriving DecidableEq

structure PortfolioQueueItem where
  id : String
  repoFullName : String
  state : PortfolioQueueItemState
  deriving DecidableEq

structure PortfolioQueueBucket where
  repoFullName : String
  items : List PortfolioQueueItem
  deriving DecidableEq

structure PortfolioQueue where
  buckets : List PortfolioQueueBucket
  deriving DecidableEq

/-- All items, bucket by bucket. -/
def PortfolioQueue.items (queue : PortfolioQueue) : List PortfolioQueueItem :=
  queue.buckets.flatMap PortfolioQueueBucket.items

section Definitions

variable (rt : LawfulRuntime)

def cleanId (value : String) : String := rt.trim value

def cleanRepoFullName (value : String) : String := rt.toLowerCase (rt.trim value)

/-- The cleaned item; the two states stay as they are. -/
def normalizeItem (item : PortfolioQueueItem) : PortfolioQueueItem :=
  ⟨cleanId rt item.id, cleanRepoFullName rt item.repoFullName, item.state⟩

def queueHasItem (queue : PortfolioQueue) (itemId : String) : Bool :=
  queue.buckets.any fun bucket => bucket.items.any fun item => cleanId rt item.id == itemId

/-- Append an item to the bucket of its repository. Blank and duplicate ids are ignored. -/
def enqueueItem (queue : PortfolioQueue) (item : PortfolioQueueItem) : PortfolioQueue :=
  let normalizedItem := normalizeItem rt item
  if normalizedItem.id = "" ∨ normalizedItem.repoFullName = "" ∨
    queueHasItem rt queue normalizedItem.id then
    queue
  else
    match queue.buckets.findIdx? fun bucket =>
        cleanRepoFullName rt bucket.repoFullName == normalizedItem.repoFullName with
    | none => ⟨queue.buckets ++ [⟨normalizedItem.repoFullName, [normalizedItem]⟩]⟩
    | some bucketIndex =>
      ⟨queue.buckets.modify bucketIndex fun bucket =>
        ⟨normalizedItem.repoFullName, bucket.items.map (normalizeItem rt) ++ [normalizedItem]⟩⟩

/-- Remove the items with an id, and the buckets that are empty then. -/
def dequeueItem (queue : PortfolioQueue) (itemId : String) : PortfolioQueue :=
  let targetId := cleanId rt itemId
  if targetId = "" then queue
  else
    let buckets := queue.buckets.filterMap fun bucket =>
      let items := bucket.items.filter fun item => cleanId rt item.id != targetId
      if items.isEmpty then none else some { bucket with items := items }
    if queueHasItem rt queue targetId then ⟨buckets⟩ else queue

/-- What callers do to the queue. -/
inductive PortfolioOp
  | enqueue (item : PortfolioQueueItem)
  | dequeue (itemId : String)

def PortfolioQueue.step (queue : PortfolioQueue) : PortfolioOp → PortfolioQueue
  | .enqueue item => enqueueItem rt queue item
  | .dequeue itemId => dequeueItem rt queue itemId

/-- The queue after a sequence of operations on the empty one. -/
def runPortfolio (ops : List PortfolioOp) : PortfolioQueue :=
  ops.foldl (PortfolioQueue.step rt) ⟨[]⟩

/-- The items in the order they were offered to the queue, cleaned. -/
def arrivals (ops : List PortfolioOp) : List PortfolioQueueItem :=
  ops.filterMap fun
    | .enqueue item => some (normalizeItem rt item)
    | .dequeue _ => none

end Definitions

/-- The items of a repository. -/
def ofRepo (repo : String) (items : List PortfolioQueueItem) : List PortfolioQueueItem :=
  items.filter fun item => item.repoFullName == repo

/-! ## What the operations keep -/

/-- The item is clean and belongs to the repository. -/
structure CleanIn (rt : LawfulRuntime) (repoFullName : String) (item : PortfolioQueueItem) :
    Prop where
  clean : normalizeItem rt item = item
  repo_eq : item.repoFullName = repoFullName

structure QueueHolds (rt : LawfulRuntime) (queue : PortfolioQueue) : Prop where
  ids_nodup : (queue.items.map fun item => cleanId rt item.id).Nodup
  repos_nodup : (queue.buckets.map PortfolioQueueBucket.repoFullName).Nodup
  nonempty : ∀ bucket ∈ queue.buckets, bucket.items ≠ []
  clean : ∀ bucket ∈ queue.buckets, ∀ item ∈ bucket.items, CleanIn rt bucket.repoFullName item

section Queue

variable {rt : LawfulRuntime} {queue : PortfolioQueue} {item : PortfolioQueueItem} {itemId : String}

theorem ofRepo_append (repo : String) (front back : List PortfolioQueueItem) :
    ofRepo repo (front ++ back) = ofRepo repo front ++ ofRepo repo back :=
  filter_append _ _

theorem ofRepo_concat_self (items : List PortfolioQueueItem) (item : PortfolioQueueItem) :
    ofRepo item.repoFullName (items ++ [item]) = ofRepo item.repoFullName items ++ [item] := by
  rw [ofRepo_append]
  simp [ofRepo]

variable {repo : String}

theorem ofRepo_singleton_ne (h : item.repoFullName ≠ repo) : ofRepo repo [item] = [] := by
  simp [ofRepo, h]

theorem ofRepo_concat_ne {items : List PortfolioQueueItem} (h : item.repoFullName ≠ repo) :
    ofRepo repo (items ++ [item]) = ofRepo repo items := by
  rw [ofRepo_append, ofRepo_singleton_ne h, append_nil]

theorem cleanRepoFullName_clean (rt : LawfulRuntime) (value : String) :
    cleanRepoFullName rt (cleanRepoFullName rt value) = cleanRepoFullName rt value := by
  rw [cleanRepoFullName, cleanRepoFullName, rt.trim_lower_trim, rt.lower_lower]

theorem normalizeItem_clean (rt : LawfulRuntime) (item : PortfolioQueueItem) :
    normalizeItem rt (normalizeItem rt item) = normalizeItem rt item := by
  simp only [normalizeItem, cleanRepoFullName_clean, cleanId, rt.trim_trim]

theorem queueHasItem_iff :
    queueHasItem rt queue itemId = true ↔
      itemId ∈ queue.items.map fun item => cleanId rt item.id := by
  rw [queueHasItem, any_eq_true, mem_map]
  constructor
  · rintro ⟨bucket, hbucket, hany⟩
    obtain ⟨item, hitem, hid⟩ := any_eq_true.1 hany
    exact ⟨item, mem_flatMap.2 ⟨bucket, hbucket, hitem⟩, beq_iff_eq.1 hid⟩
  · rintro ⟨item, hitem, hid⟩
    obtain ⟨bucket, hbucket, hmem⟩ := mem_flatMap.1 hitem
    exact ⟨bucket, hbucket, any_eq_true.2 ⟨item, hmem, beq_iff_eq.2 hid⟩⟩

/-- An item that is taken in has a new id, and starts a bucket or joins the one of its
repository. -/
theorem enqueueItem_cases (rt : LawfulRuntime) (queue : PortfolioQueue)
    (item : PortfolioQueueItem) :
    enqueueItem rt queue item = queue ∨
      (normalizeItem rt item).id ∉ queue.items.map (fun item => cleanId rt item.id) ∧
      ((∀ bucket ∈ queue.buckets,
          cleanRepoFullName rt bucket.repoFullName ≠ (normalizeItem rt item).repoFullName) ∧
        enqueueItem rt queue item =
          ⟨queue.buckets ++ [⟨(normalizeItem rt item).repoFullName, [normalizeItem rt item]⟩]⟩ ∨
      ∃ front bucket back, queue.buckets = front ++ bucket :: back ∧
        cleanRepoFullName rt bucket.repoFullName = (normalizeItem rt item).repoFullName ∧
        enqueueItem rt queue item =
          ⟨front ++ ⟨(normalizeItem rt item).repoFullName,
            bucket.items.map (normalizeItem rt) ++ [normalizeItem rt item]⟩ :: back⟩) := by
  unfold enqueueItem
  dsimp only
  split
  · exact Or.inl rfl
  · next hnew =>
    rw [not_or, not_or, queueHasItem_iff] at hnew
    refine Or.inr ⟨hnew.2.2, ?_⟩
    cases hfind : queue.buckets.findIdx? fun bucket =>
        cleanRepoFullName rt bucket.repoFullName == (normalizeItem rt item).repoFullName with
    | none =>
      refine Or.inl ⟨fun bucket hbucket heq => ?_, rfl⟩
      have hno := List.findIdx?_eq_none_iff.1 hfind bucket hbucket
      exact absurd heq (beq_eq_false_iff_ne.1 hno)
    | some i =>
      obtain ⟨hi, hrepo, -⟩ := List.findIdx?_eq_some_iff_getElem.1 hfind
      refine Or.inr ⟨queue.buckets.take i, queue.buckets[i], queue.buckets.drop (i + 1), ?_, ?_, ?_⟩
      · rw [cons_getElem_drop_succ, take_append_drop]
      · exact beq_iff_eq.1 hrepo
      · exact congrArg PortfolioQueue.mk (modify_eq_take_cons_drop hi)

variable {bucket : PortfolioQueueBucket}

theorem repo_clean (h : QueueHolds rt queue) (hbucket : bucket ∈ queue.buckets) :
    cleanRepoFullName rt bucket.repoFullName = bucket.repoFullName := by
  obtain ⟨item, hitem⟩ := exists_mem_of_ne_nil _ (h.nonempty bucket hbucket)
  obtain ⟨hclean, hrepo⟩ := h.clean bucket hbucket item hitem
  rw [← hrepo]
  exact congrArg PortfolioQueueItem.repoFullName hclean

theorem map_normalizeItem (h : QueueHolds rt queue)
    (hbucket : bucket ∈ queue.buckets) : bucket.items.map (normalizeItem rt) = bucket.items := by
  have hclean : ∀ item ∈ bucket.items, normalizeItem rt item = id item :=
    fun item hitem => (h.clean bucket hbucket item hitem).clean
  rw [map_congr_left hclean, map_id]

/-- A new id at the end keeps the ids apart. -/
theorem ids_nodup_concat (h : QueueHolds rt queue)
    (hnew : (normalizeItem rt item).id ∉ queue.items.map fun item => cleanId rt item.id) :
    ((queue.items ++ [normalizeItem rt item]).map fun item => cleanId rt item.id).Nodup := by
  rw [map_append, map_singleton]
  refine h.ids_nodup.append (nodup_singleton _) (disjoint_singleton.2 ?_)
  rwa [show cleanId rt (normalizeItem rt item).id =
    (normalizeItem rt item).id from rt.trim_trim item.id]

/-- The item is the first one of its repository. -/
theorem newBucket_holds (h : QueueHolds rt queue)
    (hnew : (normalizeItem rt item).id ∉ queue.items.map (fun item => cleanId rt item.id))
    (hother : ∀ bucket ∈ queue.buckets,
      cleanRepoFullName rt bucket.repoFullName ≠ (normalizeItem rt item).repoFullName) :
    QueueHolds rt
      ⟨queue.buckets ++ [⟨(normalizeItem rt item).repoFullName, [normalizeItem rt item]⟩]⟩ := by
  refine ⟨?_, ?_, fun b hb => ?_, fun b hb => ?_⟩
  · have hitems : PortfolioQueue.items ⟨queue.buckets ++
        [⟨(normalizeItem rt item).repoFullName, [normalizeItem rt item]⟩]⟩ =
          queue.items ++ [normalizeItem rt item] := by
      simp [PortfolioQueue.items]
    rw [hitems]
    exact ids_nodup_concat h hnew
  · rw [map_append, map_singleton]
    refine h.repos_nodup.append (nodup_singleton _) (disjoint_singleton.2 fun hmem => ?_)
    obtain ⟨b, hb, heq⟩ := mem_map.1 hmem
    refine hother b hb ?_
    rw [repo_clean h hb, heq]
  · rcases mem_append.1 hb with hb | hb
    · exact h.nonempty b hb
    · obtain rfl := mem_singleton.1 hb
      exact cons_ne_nil _ _
  · rcases mem_append.1 hb with hb | hb
    · exact h.clean b hb
    · obtain rfl := mem_singleton.1 hb
      intro i hi
      obtain rfl := mem_singleton.1 hi
      exact ⟨normalizeItem_clean rt item, rfl⟩

/-- The item joins the bucket of its repository. -/
theorem joinBucket_holds {front back : List PortfolioQueueBucket}
    (h : QueueHolds rt ⟨front ++ bucket :: back⟩)
    (hnew : (normalizeItem rt item).id ∉
      (PortfolioQueue.items ⟨front ++ bucket :: back⟩).map (fun item => cleanId rt item.id))
    (hrepo : bucket.repoFullName = (normalizeItem rt item).repoFullName) :
    QueueHolds rt
      ⟨front ++ ⟨bucket.repoFullName, bucket.items ++ [normalizeItem rt item]⟩ :: back⟩ := by
  have hbucket : bucket ∈ front ++ bucket :: back := mem_append_right _ mem_cons_self
  have hcases : ∀ b ∈ front ++ ⟨bucket.repoFullName,
      bucket.items ++ [normalizeItem rt item]⟩ :: back,
      b ∈ front ++ bucket :: back ∨
        b = ⟨bucket.repoFullName, bucket.items ++ [normalizeItem rt item]⟩ := by
    intro b hb
    rcases mem_append.1 hb with hb | hb
    · exact Or.inl (mem_append_left _ hb)
    · rcases mem_cons.1 hb with rfl | hb
      · exact Or.inr rfl
      · exact Or.inl (mem_append_right _ (mem_cons_of_mem _ hb))
  refine ⟨?_, ?_, fun b hb => ?_, fun b hb => ?_⟩
  · have hperm : (PortfolioQueue.items ⟨front ++
        ⟨bucket.repoFullName, bucket.items ++ [normalizeItem rt item]⟩ :: back⟩).Perm
          (PortfolioQueue.items ⟨front ++ bucket :: back⟩ ++ [normalizeItem rt item]) := by
      simp only [PortfolioQueue.items, flatMap_append, flatMap_cons, append_assoc]
      exact (perm_append_comm.append_left _).append_left _
    exact (hperm.map _).nodup_iff.2 (ids_nodup_concat h hnew)
  · have hrepos := h.repos_nodup
    rw [map_append, map_cons] at hrepos
    rwa [map_append, map_cons]
  · rcases hcases b hb with hb | rfl
    · exact h.nonempty b hb
    · exact concat_ne_nil _ _
  · rcases hcases b hb with hb | rfl
    · exact h.clean b hb
    · intro i hi
      rcases mem_append.1 hi with hi | hi
      · exact h.clean bucket hbucket i hi
      · obtain rfl := mem_singleton.1 hi
        exact ⟨normalizeItem_clean rt item, hrepo.symm⟩

theorem enqueueItem_holds (h : QueueHolds rt queue) :
    QueueHolds rt (enqueueItem rt queue item) := by
  rcases enqueueItem_cases rt queue item with
    hsame | ⟨hnew, ⟨hother, hqueue⟩ | ⟨front, bucket, back, hbuckets, hrepo, hqueue⟩⟩
  · rwa [hsame]
  · rw [hqueue]
    exact newBucket_holds h hnew hother
  · obtain rfl : queue = ⟨front ++ bucket :: back⟩ := congrArg PortfolioQueue.mk hbuckets
    have hbucket : bucket ∈ front ++ bucket :: back := mem_append_right _ mem_cons_self
    rw [repo_clean h hbucket] at hrepo
    rw [hqueue, map_normalizeItem h hbucket, ← hrepo]
    exact joinBucket_holds h hnew hrepo

/-- Without the items of an id; nothing when none is left. -/
def PortfolioQueueBucket.without (rt : LawfulRuntime) (targetId : String)
    (bucket : PortfolioQueueBucket) :
    Option PortfolioQueueBucket :=
  let items := bucket.items.filter fun item => cleanId rt item.id != targetId
  if items.isEmpty then none else some { bucket with items := items }

theorem without_eq_some {targetId : String} {bucket bucket' : PortfolioQueueBucket}
    (h : bucket.without rt targetId = some bucket') :
    bucket'.repoFullName = bucket.repoFullName ∧ bucket'.items.Sublist bucket.items ∧
      bucket'.items ≠ [] := by
  unfold PortfolioQueueBucket.without at h
  dsimp only at h
  split at h
  · cases h
  · next hne =>
    cases h
    exact ⟨rfl, filter_sublist, fun hnil => hne (List.isEmpty_iff.2 hnil)⟩

theorem filterMap_without_sublist (rt : LawfulRuntime) (targetId : String)
    (buckets : List PortfolioQueueBucket) :
    ((buckets.filterMap (PortfolioQueueBucket.without rt targetId)).flatMap
        PortfolioQueueBucket.items).Sublist (buckets.flatMap PortfolioQueueBucket.items) ∧
      ((buckets.filterMap (PortfolioQueueBucket.without rt targetId)).map
        PortfolioQueueBucket.repoFullName).Sublist
          (buckets.map PortfolioQueueBucket.repoFullName) := by
  induction buckets with
  | nil => exact ⟨List.Sublist.refl _, List.Sublist.refl _⟩
  | cons bucket buckets ih =>
    rw [filterMap_cons]
    cases hbucket : bucket.without rt targetId with
    | none => exact ⟨ih.1.trans (sublist_append_right _ _), ih.2.trans (sublist_cons_self _ _)⟩
    | some bucket' =>
      obtain ⟨hrepo, hitems, -⟩ := without_eq_some hbucket
      refine ⟨hitems.append ih.1, ?_⟩
      rw [map_cons, map_cons, hrepo]
      exact ih.2.cons_cons _

theorem dequeueItem_cases (rt : LawfulRuntime) (queue : PortfolioQueue) (itemId : String) :
    dequeueItem rt queue itemId = queue ∨ dequeueItem rt queue itemId =
      ⟨queue.buckets.filterMap (PortfolioQueueBucket.without rt (cleanId rt itemId))⟩ := by
  unfold dequeueItem
  dsimp only
  split
  · exact Or.inl rfl
  · split
    · exact Or.inr rfl
    · exact Or.inl rfl

theorem dequeueItem_holds (h : QueueHolds rt queue) :
    QueueHolds rt (dequeueItem rt queue itemId) := by
  rcases dequeueItem_cases rt queue itemId with hsame | hqueue
  · rwa [hsame]
  · obtain ⟨hitems, hrepos⟩ := filterMap_without_sublist rt (cleanId rt itemId) queue.buckets
    rw [hqueue]
    refine ⟨h.ids_nodup.sublist (hitems.map _), h.repos_nodup.sublist hrepos, fun b hb => ?_,
      fun b hb => ?_⟩
    · obtain ⟨bucket, -, hwithout⟩ := mem_filterMap.1 hb
      exact (without_eq_some hwithout).2.2
    · obtain ⟨bucket, hbucket, hwithout⟩ := mem_filterMap.1 hb
      obtain ⟨hrepo, hsub, -⟩ := without_eq_some hwithout
      intro item hitem
      rw [hrepo]
      exact h.clean bucket hbucket item (hsub.subset hitem)

theorem step_holds (h : QueueHolds rt queue) (op : PortfolioOp) :
    QueueHolds rt (queue.step rt op) := by
  cases op with
  | enqueue item => exact enqueueItem_holds h
  | dequeue itemId => exact dequeueItem_holds h

/-- The ids of the items are clean, and no two are the same. -/
theorem QueueHolds.map_id_nodup (h : QueueHolds rt queue) :
    (queue.items.map PortfolioQueueItem.id).Nodup := by
  have hclean : ∀ item ∈ queue.items, cleanId rt item.id = item.id := by
    intro item hitem
    obtain ⟨bucket, hbucket, hmem⟩ := mem_flatMap.1 hitem
    exact congrArg PortfolioQueueItem.id (h.clean bucket hbucket item hmem).clean
  exact map_congr_left hclean ▸ h.ids_nodup

/-- Every run keeps the queue in order. -/
theorem runPortfolio_holds (rt : LawfulRuntime) (ops : List PortfolioOp) :
    QueueHolds rt (runPortfolio rt ops) := by
  induction ops using List.reverseRecOn with
  | nil =>
    refine ⟨nodup_nil, nodup_nil, ?_, ?_⟩
    · exact fun _ h => absurd h not_mem_nil
    · exact fun _ h => absurd h not_mem_nil
  | append_singleton ops op ih =>
    rw [runPortfolio, foldl_append]
    exact step_holds ih op

theorem ofRepo_eq_nil {buckets : List PortfolioQueueBucket}
    (hclean : ∀ bucket ∈ buckets, ∀ item ∈ bucket.items, CleanIn rt bucket.repoFullName item)
    (hother : ∀ bucket ∈ buckets, bucket.repoFullName ≠ repo) :
    ofRepo repo (buckets.flatMap PortfolioQueueBucket.items) = [] := by
  rw [ofRepo, filter_eq_nil_iff]
  intro item hitem heq
  obtain ⟨bucket, hbucket, hmem⟩ := mem_flatMap.1 hitem
  exact hother bucket hbucket ((hclean bucket hbucket item hmem).repo_eq ▸ beq_iff_eq.1 heq)

/-- A new item goes behind the others of its repository. -/
theorem ofRepo_enqueueItem (h : QueueHolds rt queue) (item : PortfolioQueueItem) (repo : String) :
    (ofRepo repo (enqueueItem rt queue item).items).Sublist
      (ofRepo repo queue.items ++ [normalizeItem rt item]) := by
  rcases enqueueItem_cases rt queue item with
    hsame | ⟨-, ⟨-, hqueue⟩ | ⟨front, bucket, back, hbuckets, hrepo, hqueue⟩⟩
  · rw [hsame]
    exact sublist_append_left _ _
  · have hitems : (enqueueItem rt queue item).items = queue.items ++ [normalizeItem rt item] := by
      rw [hqueue]
      simp [PortfolioQueue.items]
    rw [hitems, ofRepo_append]
    exact (List.Sublist.refl _).append filter_sublist
  · have hbucket : bucket ∈ queue.buckets := by
      rw [hbuckets]
      exact mem_append_right _ mem_cons_self
    have hitems : (enqueueItem rt queue item).items =
        front.flatMap PortfolioQueueBucket.items ++ (bucket.items ++
          ([normalizeItem rt item] ++ back.flatMap PortfolioQueueBucket.items)) := by
      rw [hqueue, map_normalizeItem h hbucket]
      simp [PortfolioQueue.items]
    have hold : queue.items = front.flatMap PortfolioQueueBucket.items ++
        (bucket.items ++ back.flatMap PortfolioQueueBucket.items) := by
      rw [PortfolioQueue.items, hbuckets]
      simp
    rw [hitems, hold]
    simp only [ofRepo_append, append_assoc]
    refine (List.Sublist.refl _).append ((List.Sublist.refl _).append ?_)
    rw [repo_clean h hbucket] at hrepo
    by_cases heq : (normalizeItem rt item).repoFullName = repo
    · -- The buckets behind are of other repositories.
      have hback : ofRepo repo (back.flatMap PortfolioQueueBucket.items) = [] := by
        have hrepos := h.repos_nodup
        rw [hbuckets, map_append, map_cons] at hrepos
        have hnotin := (nodup_cons.1 (nodup_append.1 hrepos).2.1).1
        refine ofRepo_eq_nil (fun b hb => h.clean b ?_) fun b hb hsame => hnotin ?_
        · rw [hbuckets]
          exact mem_append_right _ (mem_cons_of_mem _ hb)
        · rw [hrepo, heq, ← hsame]
          exact mem_map_of_mem hb
      rw [hback, append_nil, nil_append]
      exact filter_sublist
    · rw [ofRepo_singleton_ne heq]
      exact sublist_append_left _ _

theorem ofRepo_dequeueItem (repo : String) :
    (ofRepo repo (dequeueItem rt queue itemId).items).Sublist (ofRepo repo queue.items) := by
  rcases dequeueItem_cases rt queue itemId with hsame | hqueue
  · rw [hsame]
  · rw [hqueue]
    exact (filterMap_without_sublist rt (cleanId rt itemId) queue.buckets).1.filter _

/-- The items of a repository stand in the order they came in. -/
theorem runPortfolio_fifo (rt : LawfulRuntime) (ops : List PortfolioOp) (repo : String) :
    (ofRepo repo (runPortfolio rt ops).items).Sublist (arrivals rt ops) := by
  induction ops using List.reverseRecOn with
  | nil => exact List.Sublist.refl _
  | append_singleton ops op ih =>
    rw [runPortfolio, foldl_append, arrivals, filterMap_append]
    cases op with
    | enqueue item =>
      have hstep := ofRepo_enqueueItem (runPortfolio_holds rt ops) item repo
      exact hstep.trans (ih.append (List.Sublist.refl _))
    | dequeue itemId =>
      refine (ofRepo_dequeueItem repo).trans (ih.trans ?_)
      exact sublist_append_left _ _

end Queue

end LoopOver
