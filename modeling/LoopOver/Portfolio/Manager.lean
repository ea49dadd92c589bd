import LoopOver.Portfolio.Expiry
import LoopOver.Portfolio.ItemId
import LoopOver.Portfolio.Selection

/-!
# The portfolio manager

`packages/loopover-miner/lib/portfolio-queue-manager.ts` claims a batch of items: it sweeps the
store, hands the active rows to the selection of the engine under composite ids, and claims what the
selection names.

* `items_perm` and `projectEntry_row` say what the engine gets to see of the rows.
* `claimTargets_keys`: a batch of queued items is claimed as a whole.
* **`claimNextBatch_iff`**: the batch is exactly what the selection chose, unless the bound of the
  sweep is negative or an identifier that was chosen starts with a colon; then nothing is claimed at
  all.
* `claimNextBatch_colon`: one such row makes every batch throw.
-/

namespace LoopOver.Portfolio

open List

/-- Text functions whose `trim` is the one of the language. -/
structure HostText extends LawfulRuntime where
  trim_eq : ∀ text, trim text = trimText text

/-! ## The manager -/

/-- A cap that is no number is no room at all, and infinity stays. -/
def normalizeCap : JsNumber → JsNumber
  | .infinite false => .infinite false
  | .finite value => .finite (max 0 (JsNumber.truncate value))
  | _ => 0

def normalizePortfolioCaps (caps : PortfolioCaps) : PortfolioCaps :=
  ⟨normalizeCap caps.globalWipCap, normalizeCap caps.perRepoWipCap⟩

/-- An entry as an item of the engine, with the key and the name of its bucket. -/
structure ProjectedEntry where
  repoKey : String
  repoLower : String
  item : PortfolioQueueItem

section Definitions

variable (rt : HostText)

def projectEntry (entry : QueueEntry) : Option ProjectedEntry :=
  let repoFullName := rt.trim entry.repoFullName
  let identifier := rt.trim entry.identifier
  if entry.status = .done ∨ repoFullName = "" ∨ identifier = "" then none
  else
    let apiBaseUrl :=
      if rt.trim entry.apiBaseUrl = "" then defaultApiBaseUrl else rt.trim entry.apiBaseUrl
    let repoLower := rt.toLowerCase repoFullName
    let repoKey := apiBaseUrl ++ "\n" ++ repoLower
    some ⟨repoKey, repoLower, queueItemId ⟨apiBaseUrl, repoFullName, identifier⟩, repoKey,
      if entry.status = .inProgress then .inProgress else .queued⟩

/-- Put an item into the bucket of its key, which may be new. -/
def addProjected (buckets : List (String × PortfolioQueueBucket)) (projected : ProjectedEntry) :
    List (String × PortfolioQueueBucket) :=
  if buckets.any fun bucket => bucket.1 == projected.repoKey then
    buckets.map fun bucket =>
      if bucket.1 = projected.repoKey then
        (bucket.1, { bucket.2 with items := bucket.2.items ++ [projected.item] })
      else bucket
  else buckets ++ [(projected.repoKey, ⟨projected.repoLower, [projected.item]⟩)]

def entriesToPortfolioQueue (entries : List QueueEntry) : PortfolioQueue :=
  ⟨((entries.filterMap (projectEntry rt)).foldl addProjected []).map Prod.snd⟩

/-- The keys of the items that the engine chooses; its loop never runs out of fuel. -/
def selectEligibleBatch (caps : PortfolioCaps) (entries : List QueueEntry) :
    Except String (List QueueKey) :=
  match nextEligibleItems rt.toLawfulRuntime (entriesToPortfolioQueue rt entries)
    (normalizePortfolioCaps caps) with
  | none => .error "out of fuel"
  | some items => items.mapM fun item => parseQueueItemId item.id

structure PortfolioQueueManager where
  caps : PortfolioCaps
  staleLeaseMs : JsNumber

/-- `DEFAULT_MAX_LEASE_MS`. -/
def defaultMaxLeaseMs : JsNumber := .finite (30 * 60 * 1000)

/-- An option that is not given is not a number. -/
def initPortfolioQueueManager (caps : Option PortfolioCaps) (staleLeaseMs : JsNumber) :
    PortfolioQueueManager :=
  ⟨normalizePortfolioCaps (caps.getD ⟨1, 1⟩), match staleLeaseMs with
    | .finite value => .finite value
    | _ => defaultMaxLeaseMs⟩

/-- The sweep and the batch read the clock one after the other. -/
def claimNextBatch (manager : PortfolioQueueManager) (sweptAt claimedAt : ℕ) (rows : Rows) :
    Except String (List QueueEntry) × Rows :=
  match sweepStuckItems (.finite sweptAt) manager.staleLeaseMs rows with
  | (.error e, rows) => (.error e, rows)
  | (.ok _, rows) =>
    batchClaim (some fun entries =>
      (selectEligibleBatch rt manager.caps entries).map fun keys => some (keys.map QueueKey.target))
        claimedAt rows

end Definitions

/-! ## What the engine gets to see -/

section Projection

variable {rt : HostText} {rows : Rows} {row : PortfolioQueueDbRow}
  {entries : List QueueEntry} {now : ℕ}

theorem addProjected_perm (buckets : List (String × PortfolioQueueBucket))
    (projected : ProjectedEntry) (hkeys : (buckets.map Prod.fst).Nodup) :
    (((addProjected buckets projected).map Prod.fst).Nodup) ∧
      ((addProjected buckets projected).flatMap fun bucket => bucket.2.items).Perm
        ((buckets.flatMap fun bucket => bucket.2.items) ++ [projected.item]) := by
  unfold addProjected
  split
  · next hany =>
    obtain ⟨bucket, hbucket, hkey⟩ := any_eq_true.1 hany
    rw [beq_iff_eq] at hkey
    refine ⟨?_, ?_⟩
    · have hsame : (buckets.map fun bucket => if bucket.1 = projected.repoKey then
          (bucket.1, { bucket.2 with items := bucket.2.items ++ [projected.item] })
            else bucket).map Prod.fst =
          buckets.map Prod.fst := by
        rw [map_map]
        apply map_congr_left
        intro bucket _
        rw [Function.comp_apply]
        split <;> rfl
      rwa [hsame]
    · obtain ⟨front, back, rfl⟩ := append_of_mem hbucket
      -- the other buckets have other keys
      have hother : ∀ part : List (String × PortfolioQueueBucket),
          projected.repoKey ∉ part.map Prod.fst →
          (part.map fun bucket => if bucket.1 = projected.repoKey then
            (bucket.1, { bucket.2 with items := bucket.2.items ++ [projected.item] })
              else bucket) = part := by
        intro part hnot
        conv_rhs => rw [← map_id part]
        apply map_congr_left
        intro bucket hmem
        exact if_neg fun heq => hnot (mem_map.2 ⟨bucket, hmem, heq⟩)
      rw [map_append, map_cons, nodup_append] at hkeys
      have hfront : projected.repoKey ∉ front.map Prod.fst := by
        intro hmem
        exact hkeys.2.2 _ hmem _ mem_cons_self hkey.symm
      have hback : projected.repoKey ∉ back.map Prod.fst := hkey ▸ (nodup_cons.1 hkeys.2.1).1
      rw [map_append, map_cons, hother front hfront, hother back hback, if_pos hkey]
      simp only [flatMap_append, flatMap_cons, append_assoc]
      exact (perm_append_comm.append_left _).append_left _
  · next hnone =>
    refine ⟨?_, ?_⟩
    · rw [map_append, map_singleton]
      refine hkeys.append (nodup_singleton _) (disjoint_singleton.2 fun hmem => hnone ?_)
      obtain ⟨bucket, hbucket, hkey⟩ := mem_map.1 hmem
      exact any_eq_true.2 ⟨bucket, hbucket, beq_iff_eq.2 hkey⟩
    · simp

/-- Every projected entry is an item of the queue, once. -/
theorem items_perm (rt : HostText) (entries : List QueueEntry) :
    (entriesToPortfolioQueue rt entries).items.Perm
      ((entries.filterMap (projectEntry rt)).map ProjectedEntry.item) := by
  have hfold : ∀ projected : List ProjectedEntry,
      ((projected.foldl addProjected []).map Prod.fst).Nodup ∧
        ((projected.foldl addProjected []).flatMap fun bucket => bucket.2.items).Perm
          (projected.map ProjectedEntry.item) := by
    intro projected
    induction projected using List.reverseRecOn with
    | nil => exact ⟨nodup_nil, List.Perm.refl _⟩
    | append_singleton projected last ih =>
      rw [foldl_append, map_append]
      obtain ⟨hkeys, hperm⟩ := addProjected_perm (projected.foldl addProjected []) last ih.1
      exact ⟨hkeys, hperm.trans (ih.2.append_right _)⟩
  have hitems : (entriesToPortfolioQueue rt entries).items =
      ((entries.filterMap (projectEntry rt)).foldl addProjected []).flatMap fun bucket =>
        bucket.2.items := by
    rw [PortfolioQueue.items, entriesToPortfolioQueue, flatMap_map]
  rw [hitems]
  exact (hfold _).2

theorem HostText.trim_trimmed (rt : HostText) {text : String} (h : Trimmed text.toList) :
    rt.trim text = text := by
  rw [rt.trim_eq, trimText_eq_self h]

/-- An active row shows its key. -/
theorem projectEntry_row (rt : HostText) (hkey : AcceptedKey row.toQueueKey)
    (hactive : row.status ≠ .done) :
    ∃ projected, projectEntry rt (rowToEntry row) = some projected ∧
      projected.item.id = queueItemId row.toQueueKey ∧
      (projected.item.state = .queued ↔ row.status ≠ .inProgress) := by
  have hrepo : row.repoFullName ≠ "" := by
    intro hempty
    exact hkey.repoFullName.ne_nil (by rw [hempty]; rfl)
  simp only [projectEntry, rowToEntry, rt.trim_trimmed hkey.repoFullName.trimmed,
    rt.trim_trimmed hkey.identifier_trimmed, rt.trim_trimmed hkey.apiBaseUrl_trimmed]
  rw [if_neg (by simp [hactive, hrepo, hkey.identifier_ne]), if_neg hkey.apiBaseUrl_ne]
  refine ⟨_, rfl, rfl, ?_⟩
  show (if row.status = .inProgress then PortfolioQueueItemState.inProgress
    else .queued) = .queued ↔ _
  split <;> simp_all

/-- The id of a key is trimmed. -/
theorem trimmed_queueItemId {key : QueueKey} (h : AcceptedKey key) :
    Trimmed (queueItemId key).toList := by
  rw [queueItemId, String.toList_ofList]
  have hbetween := h.apiBaseUrl_trimmed.between h.identifier_trimmed (toList_ne_nil h.apiBaseUrl_ne)
    (toList_ne_nil h.identifier_ne) (itemIdSeparator ++ key.repoFullName.toList ++ itemIdSeparator)
  simpa only [append_assoc] using hbetween

theorem mem_listActiveStatement :
    row ∈ listActiveStatement rows ↔ row ∈ rows ∧ row.status ≠ .done := by
  rw [listActiveStatement, mem_insertionSort, mem_filter]
  cases row.status <;> simp

/-- The ids of the active rows, in their order. -/
theorem map_id_projected (rt : HostText) {active : Rows}
    (hactive : ∀ row ∈ active, AcceptedKey row.toQueueKey ∧ row.status ≠ .done) :
    ((active.map rowToEntry).filterMap (projectEntry rt)).map (fun projected =>
      (normalizeItem rt.toLawfulRuntime projected.item).id) = active.map fun row =>
        queueItemId row.toQueueKey := by
  induction active with
  | nil => rfl
  | cons row rest ih =>
    obtain ⟨hkey, hstatus⟩ := hactive row mem_cons_self
    obtain ⟨projected, hprojected, hid, _⟩ := projectEntry_row rt hkey hstatus
    have hrest := ih fun other hother => hactive other (mem_cons_of_mem row hother)
    rw [map_cons, filterMap_cons_some hprojected, map_cons, map_cons, hrest]
    congr 1
    show rt.trim projected.item.id = _
    rw [hid, rt.trim_trimmed (trimmed_queueItemId hkey)]

/-- The active rows as the engine sees them. -/
def activeQueue (rt : HostText) (rows : Rows) : PortfolioQueue :=
  entriesToPortfolioQueue rt ((listActiveStatement rows).map rowToEntry)

theorem normalizedItems_perm (rt : HostText) (rows : Rows) :
    (normalizedItems rt.toLawfulRuntime (activeQueue rt rows)).Perm
      ((((listActiveStatement rows).map rowToEntry).filterMap (projectEntry rt)).map
        fun projected =>
        normalizeItem rt.toLawfulRuntime projected.item) := by
  have hmap : normalizedItems rt.toLawfulRuntime (activeQueue rt rows) =
      (activeQueue rt rows).items.map (normalizeItem rt.toLawfulRuntime) := by
    rw [normalizedItems, PortfolioQueue.items, map_flatMap]
  have hperm := (items_perm rt ((listActiveStatement rows).map rowToEntry)).map
    (normalizeItem rt.toLawfulRuntime)
  rw [map_map] at hperm
  rw [hmap]
  exact hperm

/-- The items of the engine are distinct. -/
theorem activeQueue_ids_nodup (rt : HostText) (hrows : StoreHolds rows) :
    ((normalizedItems rt.toLawfulRuntime (activeQueue rt rows)).map
      PortfolioQueueItem.id).Nodup := by
  have hids := (normalizedItems_perm rt rows).map PortfolioQueueItem.id
  have hactive : ∀ row ∈ listActiveStatement rows, AcceptedKey row.toQueueKey ∧
      row.status ≠ .done := by
    intro row hrow
    obtain ⟨hmem, hstatus⟩ := mem_listActiveStatement.1 hrow
    exact ⟨hrows.accepted row hmem, hstatus⟩
  have hnodup : ((listActiveStatement rows).map fun row => row.toQueueKey).Nodup := by
    have hperm := perm_insertionSort queueOrder
      (rows.filter fun row => row.status == .queued || row.status == .inProgress)
    exact ((hperm.map _).nodup_iff).2 (hrows.keys.sublist (filter_sublist.map _))
  rw [hids.nodup_iff, map_map]
  have hmap := map_id_projected rt hactive
  simp only [Function.comp_def]
  rw [hmap]
  have hcomp : (listActiveStatement rows).map (fun row => queueItemId row.toQueueKey) =
      ((listActiveStatement rows).map fun row => row.toQueueKey).map queueItemId := by
    rw [map_map]
    rfl
  rw [hcomp]
  refine hnodup.map_on fun key hkey key' hkey' heq => ?_
  obtain ⟨row, hrow, rfl⟩ := mem_map.1 hkey
  obtain ⟨row', hrow', rfl⟩ := mem_map.1 hkey'
  exact queueItemId_injective (hactive row hrow).1 (hactive row' hrow').1 heq

/-- A queued item of the engine is a queued row. -/
theorem exists_row_of_item (rt : HostText) (hrows : StoreHolds rows) {item : PortfolioQueueItem}
    (hitem : item ∈ normalizedItems rt.toLawfulRuntime (activeQueue rt rows))
    (hstate : item.state = .queued) :
    ∃ row ∈ rows, row.status = .queued ∧ item.id = queueItemId row.toQueueKey := by
  obtain ⟨projected, hprojected, rfl⟩ := mem_map.1 ((normalizedItems_perm rt rows).subset hitem)
  obtain ⟨entry, hentry, hproject⟩ := mem_filterMap.1 hprojected
  obtain ⟨row, hrow, rfl⟩ := mem_map.1 hentry
  obtain ⟨hmem, hstatus⟩ := mem_listActiveStatement.1 hrow
  have hkey := hrows.accepted row hmem
  obtain ⟨projected', hproject', hid, hstate'⟩ := projectEntry_row rt hkey hstatus
  obtain rfl := Option.some.inj (hproject.symm.trans hproject')
  refine ⟨row, hmem, ?_, ?_⟩
  · have hnot := hstate'.1 hstate
    cases hcase : row.status with
    | queued => rfl
    | inProgress => exact absurd hcase hnot
    | done => exact absurd hcase hstatus
  · show rt.trim projected.item.id = _
    rw [hid, rt.trim_trimmed (trimmed_queueItemId hkey)]

end Projection

/-! ## The batch -/

section Batch

variable {rt : HostText} {rows rows' : Rows} {now : ℕ} {keys : List QueueKey}

/-- A batch with a name that is not accepted throws. -/
theorem claimTargets_error (now : ℕ) (rows : Rows) {targets : List QueueTarget}
    {target : QueueTarget} (htarget : target ∈ targets) {e : String}
    (herror : normalizeKey target = .error e) :
    ∃ e', (claimTargets now targets rows).1 = .error e' := by
  induction targets generalizing rows with
  | nil => exact absurd htarget not_mem_nil
  | cons first rest ih =>
    rw [claimTargets]
    rcases mem_cons.1 htarget with rfl | hmem
    · rw [herror]
      exact ⟨e, rfl⟩
    · cases normalizeKey first with
      | error e' => exact ⟨e', rfl⟩
      | ok key =>
        obtain ⟨e', he'⟩ := ih (claimTargetStatement now key rows).2 hmem
        exact ⟨e', by simp [he', Except.map]⟩

/-- **A batch of queued items is claimed as a whole.** -/
theorem claimTargets_keys (now : ℕ) (hrows : (rows.map fun row => row.toQueueKey).Nodup)
    (hkeys : keys.Nodup)
    (hqueued : ∀ key ∈ keys, AcceptedKey key ∧ ∃ row ∈ rows, row.toQueueKey = key ∧
      row.status = .queued) :
    ∃ returned, (claimTargets now (keys.map QueueKey.target) rows).1 = .ok returned ∧
      returned.map QueueEntry.toQueueKey = keys := by
  induction keys generalizing rows with
  | nil => exact ⟨[], rfl, rfl⟩
  | cons key rest ih =>
    obtain ⟨haccepted, row, hrow, hkey, hstatus⟩ := hqueued key mem_cons_self
    rw [map_cons, claimTargets, normalizeKey_target haccepted]
    have hfirst := claims_claimTarget now hrows key
    cases hfound : (claimTargetStatement now key rows).1 with
    | none =>
      have hnone := Table.updateReturning_eq_none hfound row hrow
      simp [hkey, hstatus] at hnone
    | some found =>
      obtain ⟨old, _, hold, rfl⟩ := Table.updateReturning_eq_some hfound
      have holdKey : old.toQueueKey = key := beq_iff_eq.1 (Bool.and_eq_true_iff.1 hold).1
      rw [hfound] at hfirst
      obtain ⟨hnew, hrest⟩ := nodup_cons.1 hkeys
      obtain ⟨returned, hreturned, hmap⟩ := ih
        (hfirst.keys_eq.symm ▸ hrows) hrest fun other hother => by
          obtain ⟨haccepted', row', hrow', hkey', hstatus'⟩ :=
            hqueued other (mem_cons_of_mem key hother)
          refine ⟨haccepted', row', mem_transition hrow' ?_, hkey', hstatus'⟩
          rintro ⟨heq, _⟩
          exact hnew ((hkey'.symm.trans heq) ▸ hother)
      refine ⟨rowToEntry (claimRow now old) :: returned, ?_, ?_⟩
      · simp [hfound, hreturned, Except.map]
      · rw [map_cons, hmap]
        exact congrArg (· :: rest) holdKey

variable {selected : List PortfolioQueueItem}

/-- The items that the engine chose are the ids of distinct queued rows. -/
theorem exists_keys_of_selected (rt : HostText) (hrows : StoreHolds rows) {caps : PortfolioCaps}
    (hselected : SelectionHolds caps
      (normalizedItems rt.toLawfulRuntime (activeQueue rt rows)) selected) :
    ∃ keys : List QueueKey, selected.map PortfolioQueueItem.id = keys.map queueItemId ∧ keys.Nodup ∧
      ∀ key ∈ keys, AcceptedKey key ∧ ∃ row ∈ rows, row.toQueueKey = key ∧
        row.status = .queued := by
  have hall : ∀ part : List PortfolioQueueItem, part ⊆ selected → ∃ keys : List QueueKey,
      part.map PortfolioQueueItem.id = keys.map queueItemId ∧
        ∀ key ∈ keys, AcceptedKey key ∧ ∃ row ∈ rows, row.toQueueKey = key ∧
          row.status = .queued := by
    intro part
    induction part with
    | nil => exact fun _ => ⟨[], rfl, fun _ h => absurd h not_mem_nil⟩
    | cons item rest ih =>
      intro hpart
      obtain ⟨hitem, hrest⟩ := cons_subset.1 hpart
      obtain ⟨keys, hids, hkeys⟩ := ih hrest
      obtain ⟨hmem, hstate⟩ := hselected.queued item hitem
      obtain ⟨row, hrow, hstatus, hid⟩ := exists_row_of_item rt hrows hmem hstate
      refine ⟨row.toQueueKey :: keys, ?_, fun key hkey => ?_⟩
      · rw [map_cons, map_cons, hid, hids]
      · rcases mem_cons.1 hkey with rfl | hkey
        · exact ⟨hrows.accepted row hrow, row, hrow, rfl, hstatus⟩
        · exact hkeys key hkey
  obtain ⟨keys, hids, hkeys⟩ := hall selected (List.Subset.refl selected)
  refine ⟨keys, hids, List.Nodup.of_map queueItemId ?_, hkeys⟩
  rw [← hids]
  exact hselected.ids_nodup

theorem mapM_parse_eq (items : List PortfolioQueueItem) :
    (items.mapM fun item => parseQueueItemId item.id) =
      (items.map PortfolioQueueItem.id).mapM parseQueueItemId := by
  rw [mapM_map]
  rfl

theorem mapM_parse_ok
    (hkeys : ∀ key ∈ keys, AcceptedKey key ∧ key.identifier.toList.head? ≠ some ':') :
    (keys.map queueItemId).mapM parseQueueItemId = .ok keys := by
  induction keys with
  | nil => rfl
  | cons key rest ih =>
    obtain ⟨haccepted, hcolon⟩ := hkeys key mem_cons_self
    rw [map_cons, mapM_cons, parse_of_separable haccepted hcolon,
      ih fun other hother => hkeys other (mem_cons_of_mem key hother)]
    rfl

/-- Where one key does not come back, the list of targets is not made, or has a name that is not
accepted. -/
theorem mapM_parse_colon {key : QueueKey} (hkey : key ∈ keys) (haccepted : AcceptedKey key)
    (hcolon : key.identifier.toList.head? = some ':') (parsed : List QueueKey)
    (hparsed : (keys.map queueItemId).mapM parseQueueItemId = .ok parsed) :
    ∃ bad ∈ parsed, ∃ e, normalizeKey bad.target = .error e := by
  induction keys generalizing parsed with
  | nil => exact absurd hkey not_mem_nil
  | cons first rest ih =>
    rw [map_cons, mapM_cons] at hparsed
    cases hfirst : parseQueueItemId (queueItemId first) with
    | error e =>
      rw [hfirst] at hparsed
      cases hparsed
    | ok target =>
      cases hrest : (rest.map queueItemId).mapM parseQueueItemId with
      | error e =>
        rw [hfirst, hrest] at hparsed
        cases hparsed
      | ok targets =>
        rw [hfirst, hrest] at hparsed
        obtain rfl := Except.ok.inj hparsed
        rcases mem_cons.1 hkey with rfl | hmem
        · exact ⟨target, mem_cons_self, parseQueueItemId_colon haccepted hcolon target hfirst⟩
        · obtain ⟨bad, hbad, herror⟩ := ih hmem targets hrest
          exact ⟨bad, mem_cons_of_mem target hbad, herror⟩

/-- A sweep of rows whose names are accepted does not throw. -/
theorem reclaimItems_ok (items : List QueueLeaseEntry) (hrows : StoreHolds rows)
    (hitems : ∀ item ∈ items, AcceptedKey item.toQueueKey) :
    (∃ reclaimed, (reclaimItems items rows).1 = .ok reclaimed) ∧
      StoreHolds (reclaimItems items rows).2 := by
  induction items generalizing rows with
  | nil => exact ⟨⟨[], rfl⟩, hrows⟩
  | cons item rest ih =>
    have hholds := reclaim_holds hrows item.target
    have hreclaim : reclaimStuckItem item.target rows =
        (.ok ((reclaimStatement item.toQueueKey rows).1.map rowToEntry),
        (reclaimStatement item.toQueueKey rows).2) := by
      rw [reclaimStuckItem, onItem, normalizeKey_target (hitems item mem_cons_self)]
    rw [hreclaim] at hholds
    obtain ⟨⟨reclaimed, hok⟩, hrest⟩ :=
      ih hholds fun other hother => hitems other (mem_cons_of_mem item hother)
    rw [reclaimItems, hreclaim]
    refine ⟨⟨((reclaimStatement item.toQueueKey rows).1.map rowToEntry).toList ++ reclaimed, ?_⟩,
      hrest⟩
    show Except.map _ (reclaimItems rest _).1 = _
    rw [hok]
    rfl

theorem sweepStuckItems_ok (hrows : StoreHolds rows) (nowMs : ℕ) {maxLeaseMs : JsNumber}
    (hbound : isNonNegative maxLeaseMs = true) :
    (∃ reclaimed, (sweepStuckItems (.finite nowMs) maxLeaseMs rows).1 = .ok reclaimed) ∧
      StoreHolds (sweepStuckItems (.finite nowMs) maxLeaseMs rows).2 := by
  have hnow : isNonNegative (.finite nowMs) = true := decide_eq_true (Nat.cast_nonneg nowMs)
  unfold sweepStuckItems
  cases hfound : findStuckItems (listInProgress rows) (.finite nowMs) maxLeaseMs with
  | error e => simp [findStuckItems, hnow, hbound] at hfound
  | ok stuck => exact reclaimItems_ok stuck hrows fun item hitem =>
    (findStuckItems_mem hrows hfound hitem).1

theorem sweepStuckItems_error (rows : Rows) (nowMs : ℕ) {maxLeaseMs : JsNumber}
    (hbound : isNonNegative maxLeaseMs = false) :
    sweepStuckItems (.finite nowMs) maxLeaseMs rows = (.error "invalid_max_lease_ms", rows) := by
  have hnow : isNonNegative (.finite nowMs) = true := decide_eq_true (Nat.cast_nonneg nowMs)
  simp [sweepStuckItems, findStuckItems, hnow, hbound]

/-- The selection of the manager, in a store in order. -/
theorem selectEligibleBatch_eq {caps : PortfolioCaps}
    (hselected : nextEligibleItems rt.toLawfulRuntime (activeQueue rt rows)
      (normalizePortfolioCaps caps) =
      some selected) (hids : selected.map PortfolioQueueItem.id = keys.map queueItemId) :
    selectEligibleBatch rt caps ((listActiveStatement rows).map rowToEntry) =
      (keys.map queueItemId).mapM parseQueueItemId := by
  rw [selectEligibleBatch, ← activeQueue, hselected]
  show (selected.mapM fun item => parseQueueItemId item.id) = _
  rw [mapM_parse_eq, hids]

end Batch

section Claim

variable (rt : HostText) (manager : PortfolioQueueManager) (sweptAt claimedAt : ℕ) (rows : Rows)

/-- The rows that the batch is chosen from. -/
def sweptRows : Rows := (sweepStuckItems (.finite sweptAt) manager.staleLeaseMs rows).2

/-- The engine chose the row. -/
def IsSelected (selected : List PortfolioQueueItem) (row : PortfolioQueueDbRow) : Prop :=
  queueItemId row.toQueueKey ∈ selected.map PortfolioQueueItem.id

/-- The batch does not throw, and claims exactly the rows that the engine chose. -/
def TakesSelected (selected : List PortfolioQueueItem) : Prop :=
  ∃ returned, (claimNextBatch rt manager sweptAt claimedAt rows).1 = .ok returned ∧
    Claims claimedAt (sweptRows manager sweptAt rows)
      (claimNextBatch rt manager sweptAt claimedAt rows).2 returned ∧
    ∀ row ∈ sweptRows manager sweptAt rows,
      row.toQueueKey ∈ returned.map QueueEntry.toQueueKey ↔ IsSelected selected row

variable {rt manager sweptAt claimedAt rows} {selected : List PortfolioQueueItem}

theorem claimNextBatch_eq (hrows : StoreHolds rows)
    (hbound : isNonNegative manager.staleLeaseMs = true) :
    claimNextBatch rt manager sweptAt claimedAt rows = batchClaim (some fun entries =>
      (selectEligibleBatch rt manager.caps entries).map fun keys =>
        some (keys.map QueueKey.target)) claimedAt
        (sweptRows manager sweptAt rows) := by
  obtain ⟨⟨reclaimed, hok⟩, _⟩ := sweepStuckItems_ok hrows sweptAt hbound
  unfold claimNextBatch sweptRows
  split
  · next e rows' hsweep =>
    rw [hsweep] at hok
    cases hok
  · next reclaimed' rows' hsweep => rw [hsweep]

/-- Without a colon at the start of a chosen identifier, the batch is what the engine chose. -/
theorem takesSelected_of_no_colon (hrows : StoreHolds rows)
    (hbound : isNonNegative manager.staleLeaseMs = true)
    (hselected : nextEligibleItems rt.toLawfulRuntime
      (activeQueue rt (sweptRows manager sweptAt rows))
      (normalizePortfolioCaps manager.caps) = some selected)
    (hholds : SelectionHolds (normalizePortfolioCaps manager.caps)
      (normalizedItems rt.toLawfulRuntime (activeQueue rt (sweptRows manager sweptAt rows)))
        selected)
    (hcolon : ∀ row ∈ sweptRows manager sweptAt rows, IsSelected selected row →
      row.identifier.toList.head? ≠ some ':') :
      TakesSelected rt manager sweptAt claimedAt rows selected := by
  have hswept : StoreHolds (sweptRows manager sweptAt rows) :=
    (sweepStuckItems_ok hrows sweptAt hbound).2
  obtain ⟨keys, hids, hnodup, hkeys⟩ := exists_keys_of_selected rt hswept hholds
  have hparsed : (keys.map queueItemId).mapM parseQueueItemId = .ok keys := by
    apply mapM_parse_ok
    intro key hkey
    obtain ⟨haccepted, row, hrow, rfl, _⟩ := hkeys key hkey
    refine ⟨haccepted, hcolon row hrow ?_⟩
    rw [IsSelected, hids]
    exact mem_map_of_mem hkey
  obtain ⟨returned, hreturned, hmap⟩ := claimTargets_keys claimedAt hswept.keys hnodup hkeys
  have hbatch : claimNextBatch rt manager sweptAt claimedAt rows =
      (.ok returned, (claimTargets claimedAt (keys.map QueueKey.target)
        (sweptRows manager sweptAt rows)).2) := by
    rw [claimNextBatch_eq hrows hbound, batchClaim]
    rw [selectEligibleBatch_eq hselected hids, hparsed]
    dsimp only [Except.map]
    cases hresult : claimTargets claimedAt (keys.map QueueKey.target)
      (sweptRows manager sweptAt rows) with
    | mk reply final =>
      rw [hresult] at hreturned
      obtain rfl : reply = .ok returned := hreturned
      rfl
  refine ⟨returned, by rw [hbatch], ?_, fun row hrow => ?_⟩
  · rw [hbatch]
    exact claims_claimTargets hswept.keys (Prod.ext hreturned rfl)
  · rw [hmap, IsSelected, hids, mem_map]
    constructor
    · intro hmem
      exact ⟨row.toQueueKey, hmem, rfl⟩
    · rintro ⟨key, hkey, heq⟩
      rwa [← queueItemId_injective (hkeys key hkey).1 (hswept.accepted row hrow) heq]

/-- With one, it throws. -/
theorem claimNextBatch_error_of_colon (claimedAt : ℕ) (hrows : StoreHolds rows)
    (hbound : isNonNegative manager.staleLeaseMs = true)
    (hselected : nextEligibleItems rt.toLawfulRuntime
      (activeQueue rt (sweptRows manager sweptAt rows))
      (normalizePortfolioCaps manager.caps) = some selected)
    (hholds : SelectionHolds (normalizePortfolioCaps manager.caps)
      (normalizedItems rt.toLawfulRuntime (activeQueue rt (sweptRows manager sweptAt rows)))
        selected)
    {row : PortfolioQueueDbRow} (hrow : row ∈ sweptRows manager sweptAt rows)
    (hmem : IsSelected selected row)
    (hcolon : row.identifier.toList.head? = some ':') :
    ∃ e, (claimNextBatch rt manager sweptAt claimedAt rows).1 = .error e := by
  have hswept : StoreHolds (sweptRows manager sweptAt rows) :=
    (sweepStuckItems_ok hrows sweptAt hbound).2
  obtain ⟨keys, hids, _, hkeys⟩ := exists_keys_of_selected rt hswept hholds
  rw [IsSelected, hids, mem_map] at hmem
  obtain ⟨key, hkey, heq⟩ := hmem
  obtain rfl := queueItemId_injective (hkeys key hkey).1 (hswept.accepted row hrow) heq
  rw [claimNextBatch_eq hrows hbound, batchClaim]
  rw [selectEligibleBatch_eq hselected hids]
  cases hparsed : (keys.map queueItemId).mapM parseQueueItemId with
  | error e => exact ⟨e, rfl⟩
  | ok parsed =>
    obtain ⟨bad, hbad, e, herror⟩ := mapM_parse_colon hkey (hkeys _ hkey).1 hcolon parsed hparsed
    obtain ⟨e', he'⟩ := claimTargets_error claimedAt (sweptRows manager sweptAt rows)
      (mem_map_of_mem hbad) herror
    dsimp only [Except.map]
    cases hresult : claimTargets claimedAt (parsed.map QueueKey.target)
      (sweptRows manager sweptAt rows) with
    | mk reply final =>
      rw [hresult] at he'
      obtain rfl : reply = .error e' := he'
      exact ⟨e', rfl⟩

end Claim

/-- **When a batch takes exactly what was chosen**: a key comes back from its id unless its
identifier starts with a colon, and a batch is what the engine chose unless it chose such a row or
the bound of the sweep is negative. -/
theorem claimNextBatch_iff (rt : HostText) (caps : Option PortfolioCaps) (staleLeaseMs : JsNumber)
    (history : List (ℕ × QueueOp)) (sweptAt claimedAt : ℕ) :
    (∀ target key, normalizeKey target = .ok key →
      (parseQueueItemId (queueItemId key) = .ok key ↔ key.identifier.toList.head? ≠ some ':')) ∧
    ∃ selected, nextEligibleItems rt.toLawfulRuntime
        (activeQueue rt (sweptRows (initPortfolioQueueManager caps staleLeaseMs) sweptAt
          (storeAfter history)))
        (normalizePortfolioCaps (initPortfolioQueueManager caps staleLeaseMs).caps) =
          some selected ∧
      (TakesSelected rt (initPortfolioQueueManager caps staleLeaseMs) sweptAt claimedAt
        (storeAfter history) selected ↔
        isNonNegative (initPortfolioQueueManager caps staleLeaseMs).staleLeaseMs = true ∧
          ∀ row ∈ sweptRows (initPortfolioQueueManager caps staleLeaseMs) sweptAt
            (storeAfter history),
            IsSelected selected row → row.identifier.toList.head? ≠ some ':') := by
  refine ⟨fun target key hkey => parseQueueItemId_queueItemId (acceptedKey_of_normalizeKey hkey),
    ?_⟩
  generalize initPortfolioQueueManager caps staleLeaseMs = manager
  have hrows := storeAfter_holds history
  cases hbound : isNonNegative manager.staleLeaseMs with
  | false =>
    have hsweep := sweepStuckItems_error (storeAfter history) sweptAt hbound
    have hsame : sweptRows manager sweptAt (storeAfter history) = storeAfter history := by
      rw [sweptRows, hsweep]
    rw [hsame]
    obtain ⟨selected, hselected, _⟩ := nextEligibleItems_holds rt.toLawfulRuntime
      (activeQueue rt (storeAfter history)) (normalizePortfolioCaps manager.caps)
        (activeQueue_ids_nodup rt hrows)
    refine ⟨selected, hselected, fun ⟨returned, hreturned, _⟩ => ?_, fun ⟨h, _⟩ => by cases h⟩
    rw [claimNextBatch, hsweep] at hreturned
    cases hreturned
  | true =>
    have hswept : StoreHolds (sweptRows manager sweptAt (storeAfter history)) :=
      (sweepStuckItems_ok hrows sweptAt hbound).2
    obtain ⟨selected, hselected, hholds⟩ := nextEligibleItems_holds rt.toLawfulRuntime
      (activeQueue rt (sweptRows manager sweptAt (storeAfter history)))
        (normalizePortfolioCaps manager.caps)
      (activeQueue_ids_nodup rt hswept)
    refine ⟨selected, hselected, fun ⟨returned, hreturned, _⟩ =>
      ⟨rfl, fun row hrow hmem hcolon => ?_⟩,
      fun ⟨_, hcolon⟩ => takesSelected_of_no_colon hrows hbound hselected hholds hcolon⟩
    obtain ⟨e, herror⟩ := claimNextBatch_error_of_colon claimedAt hrows hbound hselected hholds hrow
      hmem hcolon
    rw [hreturned] at herror
    cases herror

theorem isRegexSpace_toLower (c : Char) : isRegexSpace c.toLower = isRegexSpace c := by
  rw [isRegexSpace, isRegexSpace, toNat_toLower]
  split_ifs with hupper
  · rw [Bool.eq_iff_iff]
    simp only [Bool.or_eq_true, Bool.and_eq_true, decide_eq_true_eq, beq_iff_eq]
    omega
  · rfl

/-- Text of the language, with lower case on ASCII letters. -/
def asciiHostText : HostText where
  toLowerCase := asciiText.toLowerCase
  sanitizePublicComment := asciiText.sanitizePublicComment
  trim := trimText
  dateParse := asciiRuntime.dateParse
  trim_trim := trimText_trimText
  lower_lower := asciiLawful.lower_lower
  trim_lower_trim text := by
    apply trimText_eq_self
    have htrimmed := trimmed_trimText text
    show Trimmed (String.ofList ((trimText text).toList.map Char.toLower)).toList
    rw [String.toList_ofList]
    constructor
    · intro c hc
      rw [List.head?_map, Option.mem_map] at hc
      obtain ⟨d, hd, rfl⟩ := hc
      rw [isRegexSpace_toLower]
      exact htrimmed.head d hd
    · intro c hc
      rw [List.getLast?_map, Option.mem_map] at hc
      obtain ⟨d, hd, rfl⟩ := hc
      rw [isRegexSpace_toLower]
      exact htrimmed.last d hd
  trim_eq _ := rfl

/-- **One row whose identifier starts with a colon makes every batch throw.** -/
theorem claimNextBatch_colon :
    parseQueueItemId (queueItemId ⟨defaultApiBaseUrl, "acme/web", ":42"⟩) ≠
        .ok ⟨defaultApiBaseUrl, "acme/web", ":42"⟩ ∧
      normalizeKey (sampleItem ":42").toQueueTarget = .ok ⟨defaultApiBaseUrl, "acme/web", ":42"⟩ ∧
      (claimNextBatch asciiHostText (initPortfolioQueueManager none 1000) 1 1
        (storeAfter [(0, .enqueue (sampleItem ":42")), (0, .enqueue (sampleItem "43"))])).1 =
          .error "invalid_repo_full_name" := by
  decide +kernel

end LoopOver.Portfolio
