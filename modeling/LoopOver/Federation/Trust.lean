import LoopOver.Federation.Import
import Mathlib.Data.List.DropRight

/-!
# Which peers are trusted over time

A tick imports a batch of bundles and then puts it through the peer state. The events of a run are
the entries that were pruned and the bundles that were accepted.

* `Trusted` is the invariant: for each instance, `Settled` bounds the dates of its bundles by its
  entry, or, once the entry is gone, by the age that a bundle may have.
* **`peer_trust_kept`**: over every run, what is accepted passes the checks, once for each instance
  and tick, with dates that increase, under one key while the entry stays, and no key fills more
  than ten entries.
-/

namespace LoopOver.Federation

open List

/-! ## Runs -/

/-- What happens to an instance. -/
inductive TrustEvent
  | pruned (id : String)
  | accepted (tick : SyncTick) (bundle : FederatedSignalBundle)

/-- The peer state, and what has happened to it. -/
structure History where
  state : FederatedPeerState
  events : List TrustEvent

def prunedBy (now : ℤ) (state : FederatedPeerState) : List String :=
  (state.filter (expired now)).map (·.instanceId)

section Runs

variable (host : FederationHost)

def History.sync (h : History) (tick : SyncTick) : History :=
  ⟨(tick.sync host h.state).2,
    h.events ++ (prunedBy tick.now h.state).map .pruned ++
      (tick.sync host h.state).1.accepted.map (.accepted tick)⟩

/-- A run from an empty peer state. -/
def history (ticks : List SyncTick) : History := ticks.foldl (History.sync host) ⟨[], []⟩

/-- The dates of the bundles that an instance had accepted, in their order. -/
def acceptedTimes (id : String) (events : List TrustEvent) : List ℤ :=
  events.filterMap fun
    | .pruned _ => none
    | .accepted _ bundle => if instanceId bundle = id then generatedAtMs host bundle else none

/-- Two keys of the run do not have one fingerprint. -/
def FingerprintsDiffer (ticks : List SyncTick) : Prop :=
  ∀ tick ∈ ticks, ∀ key ∈ tick.config.peerKeys, ∀ tick' ∈ ticks, ∀ key' ∈ tick'.config.peerKeys,
    federatedKeyFingerprint host key = federatedKeyFingerprint host key' → key = key'

/-- What a run keeps. -/
structure TrustKept (ticks : List SyncTick) : Prop where
  /-- Every accepted bundle passes the checks, under a key that is listed. -/
  gated : ∀ tick bundle, .accepted tick bundle ∈ (history host ticks).events →
    tick ∈ ticks ∧ Passes host tick bundle
  onePerTick : ∀ front tick back, ticks = front ++ tick :: back →
    ((tick.sync host (history host front).state).1.accepted.map instanceId).Nodup
  increasing : ∀ id, (acceptedTimes host id (history host ticks).events).Pairwise (· < ·)
  /-- While the entry of an instance stays, one key speaks for it. -/
  oneKey : ∀ id part, part <:+: (history host ticks).events → .pruned id ∉ part →
    ∃ key, ∀ tick bundle, .accepted tick bundle ∈ part → instanceId bundle = id →
      key ∈ tick.config.peerKeys ∧ verifiesUnder host bundle key = true
  capped : ∀ front, front <+: ticks → ∀ key,
    liveInstancesForKey (federatedKeyFingerprint host key) (history host front).state ≤
      maxInstancesPerKey

end Runs

/-! ## One step -/

/-- Prune the entries that are too old. -/
def History.prune (now : ℤ) (h : History) : History :=
  ⟨Table.deleteWhere (expired now) h.state, h.events ++ (prunedBy now h.state).map .pruned⟩

/-- One bundle. -/
def History.consider (host : FederationHost) (tick : SyncTick) (h : History)
    (bundle : FederatedSignalBundle) : History :=
  match LoopOver.Federation.consider host tick.config.peerKeys tick.now h.state bundle with
  | .error _ => h
  | .ok state => ⟨state, h.events ++ [.accepted tick bundle]⟩

section Steps

variable {host : FederationHost} {tick : SyncTick} {bundle : FederatedSignalBundle}
  {state state' : FederatedPeerState}
  {events : List TrustEvent} {id : String} {now now' : ℤ} {h : History}

theorem foldl_watermark (host : FederationHost) (tick : SyncTick)
    (bundles : List FederatedSignalBundle) (result : FederatedImportResult)
    (state : FederatedPeerState) (events : List TrustEvent) :
    let done := bundles.foldl (watermark host tick.config.peerKeys tick.now) (result, state)
    bundles.foldl (History.consider host tick) ⟨state,
        events ++ result.accepted.map (.accepted tick)⟩ =
        ⟨done.2, events ++ done.1.accepted.map (.accepted tick)⟩ ∧
      ∃ more, List.Sublist more bundles ∧ done.1.accepted = result.accepted ++ more := by
  induction bundles generalizing result state with
  | nil => exact ⟨rfl, [], List.Sublist.refl _, (append_nil _).symm⟩
  | cons bundle rest ih =>
    simp only [foldl_cons]
    rw [watermark, History.consider]
    cases LoopOver.Federation.consider host tick.config.peerKeys tick.now state bundle with
    | error reason =>
      obtain ⟨heq, more, hsub, hmore⟩ :=
        ih ⟨result.accepted, result.rejected ++ [⟨some (instanceId bundle), reason⟩]⟩ state
      exact ⟨heq, more, hsub.cons bundle, hmore⟩
    | ok state' =>
      obtain ⟨heq, more, hsub, hmore⟩ := ih ⟨result.accepted ++ [bundle], result.rejected⟩ state'
      refine ⟨?_, bundle :: more, hsub.cons_cons bundle, ?_⟩
      · rw [← heq, map_append, ← append_assoc]
        rfl
      · rw [hmore, append_assoc]
        rfl

/-- A tick prunes, and then takes the bundles of the batch one by one. -/
theorem sync_eq (host : FederationHost) (h : History) (tick : SyncTick) :
    h.sync host tick = (tick.imported host).accepted.foldl (History.consider host tick)
      (h.prune tick.now) := by
  obtain ⟨heq, _⟩ := foldl_watermark host tick (tick.imported host).accepted
    ⟨[], (tick.imported host).rejected⟩ (Table.deleteWhere (expired tick.now) h.state)
    (h.events ++ (prunedBy tick.now h.state).map .pruned)
  rw [map_nil, append_nil] at heq
  exact heq.symm

theorem accepted_sublist (host : FederationHost) (tick : SyncTick) (state : FederatedPeerState) :
    (tick.sync host state).1.accepted.Sublist (tick.imported host).accepted := by
  obtain ⟨_, more, hsub, hmore⟩ := foldl_watermark host tick (tick.imported host).accepted
    ⟨[], (tick.imported host).rejected⟩ (Table.deleteWhere (expired tick.now) state) []
  rw [nil_append] at hmore
  exact hmore ▸ hsub

end Steps

/-! ## Invariants -/

def TrustEvent.keeps (id : String) : TrustEvent → Bool
  | .pruned other => other != id
  | .accepted _ _ => true

/-- What has happened since the entry of the instance was last pruned. -/
def since (id : String) (events : List TrustEvent) : List TrustEvent :=
  events.rtakeWhile (TrustEvent.keeps id)

/-- One fingerprint for the bundles of an instance since its entry was last pruned. -/
def OneVoice (host : FederationHost) (id : String) (events : List TrustEvent) : Prop :=
  ∃ fingerprint, ∀ tick bundle, .accepted tick bundle ∈ since id events → instanceId bundle = id →
    fingerprintOf host tick.config.peerKeys bundle = some fingerprint

/-- The entry of an instance says what was accepted from it; where there is none, all of it is too
old by now. -/
def Settled (host : FederationHost) (now : ℤ) (events : List TrustEvent) (id : String) :
    Option FederatedPeerStateEntry → Prop
  | some entry =>
    (∀ time ∈ acceptedTimes host id events,
        time ≤ entry.lastGeneratedAtMs ∧ time ≤ entry.lastSeenAtMs + maxClockSkewMs) ∧
      ∀ tick bundle, .accepted tick bundle ∈ since id events → instanceId bundle = id →
        fingerprintOf host tick.config.peerKeys bundle = some entry.keyFingerprint
  | none =>
    (∀ time ∈ acceptedTimes host id events, time < now - maxBundleAgeMs) ∧
      ∀ tick bundle, .accepted tick bundle ∈ since id events → instanceId bundle ≠ id

structure Trusted (host : FederationHost) (now : ℤ) (h : History) : Prop where
  nodup : (h.state.map (·.instanceId)).Nodup
  capped : ∀ fingerprint, liveInstancesForKey fingerprint h.state ≤ maxInstancesPerKey
  increasing : ∀ id, (acceptedTimes host id h.events).Pairwise (· < ·)
  settled : ∀ id, Settled host now h.events id (h.state.entry? id)
  oneVoice : ∀ id front, front <+: h.events → OneVoice host id front

section Invariants

variable {host : FederationHost} {tick : SyncTick} {bundle : FederatedSignalBundle}
  {events part : List TrustEvent}
  {ids : List String} {id : String} {now now' : ℤ} {h : History}

@[simp] theorem acceptedTimes_pruned :
    acceptedTimes host id (events ++ ids.map .pruned) = acceptedTimes host id events := by
  rw [acceptedTimes, filterMap_append, filterMap_map]
  simp [acceptedTimes]

theorem acceptedTimes_accepted {time : ℤ} (htime : generatedAtMs host bundle = some time) :
    acceptedTimes host id (events ++ [.accepted tick bundle]) =
      acceptedTimes host id events ++ if instanceId bundle = id then [time] else [] := by
  rw [acceptedTimes, filterMap_append]
  by_cases hid : instanceId bundle = id
  · simp [acceptedTimes, hid, htime]
  · simp [acceptedTimes, hid]

theorem since_accepted :
    since id (events ++ [.accepted tick bundle]) = since id events ++ [.accepted tick bundle] :=
  rtakeWhile_concat_pos _ _ _ rfl

theorem mem_since_pruned (hmem : .accepted tick bundle ∈ since id (events ++ ids.map .pruned)) :
    id ∉ ids ∧ .accepted tick bundle ∈ since id events := by
  induction ids using List.reverseRecOn with
  | nil => exact ⟨not_mem_nil, by simpa using hmem⟩
  | append_singleton front other ih =>
    rw [since, map_append, ← append_assoc, map_singleton, rtakeWhile_concat] at hmem
    split at hmem
    · next hother =>
      obtain ⟨hfront, hevents⟩ := ih ((mem_append.1 hmem).resolve_right (by simp))
      refine ⟨fun hid => ?_, hevents⟩
      rcases mem_append.1 hid with hid | hid
      · exact hfront hid
      · simp [TrustEvent.keeps, mem_singleton.1 hid] at hother
    · exact absurd hmem not_mem_nil

/-- A part without a pruning of the instance belongs to what has happened since. -/
theorem mem_since_part (hpart : .pruned id ∉ part) {event : TrustEvent} (hevent : event ∈ part) :
    event ∈ since id (events ++ part) := by
  induction part using List.reverseRecOn with
  | nil => exact absurd hevent not_mem_nil
  | append_singleton front last ih =>
    have hlast : last.keeps id = true := by
      cases last with
      | accepted _ _ => rfl
      | pruned other =>
        refine bne_iff_ne.2 fun hsame => hpart ?_
        rw [hsame]
        exact mem_append_right _ mem_cons_self
    rw [since, ← append_assoc, rtakeWhile_concat_pos _ _ _ hlast]
    rcases mem_append.1 hevent with hfront | hsame
    · exact mem_append_left _ (ih (fun hid => hpart (mem_append_left _ hid)) hfront)
    · exact mem_append_right _ hsame

theorem Settled.oneVoice {entry : Option FederatedPeerStateEntry}
    (hsettled : Settled host now events id entry) :
    OneVoice host id events := by
  cases entry with
  | some entry => exact ⟨entry.keyFingerprint, hsettled.2⟩
  | none => exact ⟨"", fun tick bundle hmem hid => absurd hid (hsettled.2 tick bundle hmem)⟩

theorem trusted_start (host : FederationHost) (now : ℤ) : Trusted host now ⟨[], []⟩ where
  nodup := nodup_nil
  capped _ := Nat.zero_le _
  increasing _ := List.Pairwise.nil
  settled _ := ⟨fun _ htime => absurd htime not_mem_nil, fun _ _ hmem => absurd hmem not_mem_nil⟩
  oneVoice _ front hfront := by
    rw [prefix_nil.1 hfront]
    exact ⟨"", fun _ _ hmem => absurd hmem not_mem_nil⟩

theorem Trusted.later (ht : Trusted host now h) (hnow : now ≤ now') : Trusted host now' h where
  nodup := ht.nodup
  capped := ht.capped
  increasing := ht.increasing
  oneVoice := ht.oneVoice
  settled id := by
    have hsettled := ht.settled id
    cases hentry : h.state.entry? id with
    | some entry => rwa [hentry] at hsettled
    | none =>
      rw [hentry] at hsettled
      refine ⟨fun time htime => ?_, hsettled.2⟩
      have hold := hsettled.1 time htime
      omega

/-- **What pruning keeps**: what an entry says that is pruned is older than any bundle that may
come. -/
theorem Trusted.prune (ht : Trusted host now h) : Trusted host now (h.prune now) := by
  have hentry : ∀ id, (h.prune now).state.entry? id = (h.state.entry? id).filter fun entry =>
      !expired now entry :=
    fun id => Table.find?_key_deleteWhere FederatedPeerStateEntry.instanceId ht.nodup id
  have hsettled : ∀ id,
      Settled host now (h.prune now).events id ((h.prune now).state.entry? id) := by
    intro id
    have hold := ht.settled id
    rw [hentry]
    cases hfound : h.state.entry? id with
    | none =>
      rw [hfound] at hold
      refine ⟨fun time htime => hold.1 time ?_,
        fun tick bundle hmem => hold.2 tick bundle (mem_since_pruned hmem).2⟩
      rwa [History.prune, acceptedTimes_pruned] at htime
    | some entry =>
      rw [hfound] at hold
      cases hexpired : expired now entry with
      | false =>
        rw [Option.filter_some, hexpired, Bool.not_false, if_pos rfl]
        refine ⟨fun time htime => hold.1 time ?_,
          fun tick bundle hmem => hold.2 tick bundle (mem_since_pruned hmem).2⟩
        rwa [History.prune, acceptedTimes_pruned] at htime
      | true =>
        rw [Option.filter_some, hexpired, Bool.not_true, if_neg Bool.false_ne_true]
        refine ⟨fun time htime => ?_, fun tick bundle hmem => absurd ?_ (mem_since_pruned hmem).1⟩
        · rw [History.prune, acceptedTimes_pruned] at htime
          have hseen := (hold.1 time htime).2
          have hlong := of_decide_eq_true hexpired
          simp only [peerStatePruneAfterMs, maxClockSkewMs, maxBundleAgeMs] at hseen hlong ⊢
          omega
        · have hid : entry.instanceId = id := by simpa using List.find?_some hfound
          exact mem_map.2 ⟨entry, mem_filter.2 ⟨mem_of_find?_eq_some hfound, hexpired⟩, hid⟩
  refine ⟨ht.nodup.sublist (Table.keys_deleteWhere _), fun fingerprint => ?_, fun id => ?_,
    hsettled, ?_⟩
  · exact (List.Sublist.countP_le filter_sublist).trans (ht.capped fingerprint)
  · rw [History.prune, acceptedTimes_pruned]
    exact ht.increasing id
  · rintro id front hfront
    rcases prefix_or_prefix_of_prefix hfront (prefix_append h.events _) with hold | ⟨more, rfl⟩
    · exact ht.oneVoice id front hold
    · obtain ⟨fingerprint, hvoice⟩ := (ht.settled id).oneVoice
      obtain ⟨count, rfl⟩ : ∃ count, more = ((prunedBy now h.state).take count).map .pruned := by
        have hmore := (prefix_append_right_inj _).1 hfront
        exact ⟨more.length, by rw [map_take]; exact (prefix_iff_eq_take.1 hmore)⟩
      exact ⟨fingerprint, fun tick bundle hmem => hvoice tick bundle (mem_since_pruned hmem).2⟩

/-- What was accepted from the instance before is older than a bundle that is accepted now. -/
theorem Trusted.older (ht : Trusted host tick.now h) (hpasses : Passes host tick bundle)
    {state : FederatedPeerState}
    (hconsider : LoopOver.Federation.consider host tick.config.peerKeys tick.now h.state
      bundle = .ok state)
    {time : ℤ} (htime : generatedAtMs host bundle = some time) :
    ∀ older ∈ acceptedTimes host (instanceId bundle) h.events, older < time := by
  intro older holder
  have hsettled := ht.settled (instanceId bundle)
  obtain ⟨fingerprint, _, ⟨existing, hentry, _, hnewer, _⟩ | ⟨hentry, _, _⟩⟩ :=
    consider_cases hconsider
  · rw [hentry] at hsettled
    rw [htime, Option.getD_some] at hnewer
    exact lt_of_le_of_lt (hsettled.1 older holder).1 hnewer
  · rw [hentry] at hsettled
    obtain ⟨generatedAt, hgenerated, hage, _⟩ := hpasses.recent
    obtain rfl := Option.some.inj (htime.symm.trans hgenerated)
    have hold := hsettled.1 older holder
    omega

/-- **What a bundle keeps.** -/
theorem Trusted.consider (ht : Trusted host tick.now h) (hpasses : Passes host tick bundle) :
    Trusted host tick.now (h.consider host tick bundle) := by
  rw [History.consider]
  cases hconsider : LoopOver.Federation.consider host tick.config.peerKeys tick.now
    h.state bundle with
  | error reason => exact ht
  | ok state' =>
    show Trusted host tick.now ⟨state', h.events ++ [.accepted tick bundle]⟩
    obtain ⟨time, htime, _, hskew⟩ := hpasses.recent
    have holder := ht.older hpasses hconsider htime
    obtain ⟨⟨entry, hentry, hvoice, hlast, hseen⟩, hothers⟩ := entry?_consider hconsider
    rw [htime, Option.getD_some] at hlast
    have hsettled : ∀ id,
        Settled host tick.now (h.events ++ [.accepted tick bundle]) id (state'.entry? id) := by
      intro id
      have hold := ht.settled id
      by_cases hid : instanceId bundle = id
      · subst hid
        rw [hentry]
        refine ⟨fun other hother => ?_, fun otherTick other hmem hsame => ?_⟩
        · rw [acceptedTimes_accepted htime, if_pos rfl] at hother
          rw [hlast, hseen]
          rcases mem_append.1 hother with hother | hother
          · have hlt := holder other hother
            omega
          · rw [mem_singleton.1 hother]
            omega
        · rw [since_accepted] at hmem
          rcases mem_append.1 hmem with hmem | hmem
          · obtain ⟨fingerprint, hfingerprint, ⟨existing, hfound, hkey, _⟩ | ⟨hfound, _⟩⟩ :=
              consider_cases hconsider
            · rw [hfound] at hold
              rw [hold.2 otherTick other hmem hsame, hkey, ← hfingerprint, hvoice]
            · rw [hfound] at hold
              exact absurd hsame (hold.2 otherTick other hmem)
          · obtain ⟨rfl, rfl⟩ := TrustEvent.accepted.inj (mem_singleton.1 hmem)
            exact hvoice
      · rw [hothers id hid]
        have hmem : ∀ {otherTick other}, TrustEvent.accepted otherTick other ∈
            since id (h.events ++ [.accepted tick bundle]) → instanceId other = id →
            TrustEvent.accepted otherTick other ∈ since id h.events := by
          intro otherTick other hmem hsame
          rw [since_accepted] at hmem
          refine (mem_append.1 hmem).resolve_right fun hlast => hid ?_
          obtain ⟨rfl, rfl⟩ := TrustEvent.accepted.inj (mem_singleton.1 hlast)
          exact hsame
        cases hfound : h.state.entry? id with
        | some other =>
          rw [hfound] at hold
          refine ⟨?_, fun otherTick bundle' hin hsame =>
            hold.2 otherTick bundle' (hmem hin hsame) hsame⟩
          rw [acceptedTimes_accepted htime, if_neg hid, append_nil]
          exact hold.1
        | none =>
          rw [hfound] at hold
          refine ⟨?_, fun otherTick bundle' hin hsame =>
            hold.2 otherTick bundle' (hmem hin hsame) hsame⟩
          rw [acceptedTimes_accepted htime, if_neg hid, append_nil]
          exact hold.1
    refine ⟨?_, ?_, fun id => ?_, hsettled, ?_⟩
    · obtain ⟨fingerprint, _, ⟨existing, _, _, _, rfl⟩ | ⟨hnone, _, rfl⟩⟩ :=
        consider_cases hconsider
      · have hkeys : ∀ row : FederatedPeerStateEntry, (row.instanceId == instanceId bundle) = true →
            FederatedPeerStateEntry.instanceId ⟨row.instanceId, fingerprint,
              (generatedAtMs host bundle).getD 0,
              tick.now, existing.firstSeenAtMs⟩ = row.instanceId := fun _ _ => rfl
        rw [Table.keys_updateWhere hkeys]
        exact ht.nodup
      · refine Table.nodup_keys_concat ht.nodup fun hmem => ?_
        obtain ⟨other, hother, hsame⟩ := mem_map.1 hmem
        exact List.find?_eq_none.1 hnone other hother (beq_iff_eq.2 hsame)
    · intro counted
      obtain ⟨fingerprint, _, ⟨existing, hfound, hkey, _, rfl⟩ | ⟨_, hroom, rfl⟩⟩ :=
        consider_cases hconsider
      · rw [liveInstancesForKey, Table.countP_updateWhere_eq]
        · exact ht.capped counted
        · intro row hrow hsame
          have hid : existing.instanceId = instanceId bundle := by
            simpa using List.find?_some hfound
          obtain rfl := Table.eq_of_key ht.nodup hrow (mem_of_find?_eq_some hfound)
            ((eq_of_beq hsame).trans hid.symm)
          rw [hkey]
      · have hcapped := ht.capped counted
        rw [liveInstancesForKey] at hcapped hroom ⊢
        rw [countP_append, countP_singleton]
        split
        · next hsame =>
          obtain rfl : fingerprint = counted := eq_of_beq hsame
          omega
        · omega
    · rw [acceptedTimes_accepted htime, pairwise_append]
      refine ⟨ht.increasing id, by split <;> simp, fun older hmem newer hnewer => ?_⟩
      split at hnewer
      · next hid =>
        subst hid
        rw [mem_singleton.1 hnewer]
        exact holder older hmem
      · exact absurd hnewer not_mem_nil
    · intro id front hfront
      rcases prefix_concat_iff.1 hfront with rfl | hold
      · exact (hsettled id).oneVoice
      · exact ht.oneVoice id front hold

theorem Trusted.foldl_consider {bundles : List FederatedSignalBundle} (ht : Trusted host tick.now h)
    (hpasses : ∀ bundle ∈ bundles, Passes host tick bundle) :
    Trusted host tick.now (bundles.foldl (History.consider host tick) h) := by
  induction bundles generalizing h with
  | nil => exact ht
  | cons bundle rest ih =>
    exact ih (ht.consider (hpasses bundle mem_cons_self)) fun other hother =>
      hpasses other (mem_cons_of_mem _ hother)

/-- **What a tick keeps.** -/
theorem Trusted.sync (ht : Trusted host now h) (hnow : now ≤ tick.now) :
    Trusted host tick.now (h.sync host tick) := by
  rw [sync_eq]
  exact (ht.later hnow).prune.foldl_consider fun bundle hbundle => passes_of_imported hbundle

variable {ticks : List SyncTick}

theorem Trusted.foldl_sync (ht : Trusted host now h) (hnow : ∀ tick ∈ ticks, now ≤ tick.now)
    (htimes : (ticks.map SyncTick.now).Pairwise (· ≤ ·)) :
    ∃ now', Trusted host now' (ticks.foldl (History.sync host) h) := by
  induction ticks generalizing h now with
  | nil => exact ⟨now, ht⟩
  | cons tick rest ih =>
    rw [map_cons, pairwise_cons] at htimes
    exact ih (ht.sync (hnow tick mem_cons_self))
      (fun other hother => htimes.1 _ (mem_map_of_mem hother))
      htimes.2

theorem trusted_history (host : FederationHost)
    (htimes : (ticks.map SyncTick.now).Pairwise (· ≤ ·)) :
    ∃ now, Trusted host now (history host ticks) := by
  cases ticks with
  | nil => exact ⟨0, trusted_start host 0⟩
  | cons tick rest =>
    refine (trusted_start host tick.now).foldl_sync (fun other hother => ?_) htimes
    rw [map_cons, pairwise_cons] at htimes
    rcases mem_cons.1 hother with rfl | hrest
    · exact le_rfl
    · exact htimes.1 _ (mem_map_of_mem hrest)

/-- What was accepted came in the batch of a tick. -/
theorem imported_of_accepted (hmem : .accepted tick bundle ∈ (history host ticks).events) :
    tick ∈ ticks ∧ bundle ∈ (tick.imported host).accepted := by
  induction ticks using List.reverseRecOn with
  | nil => exact absurd hmem not_mem_nil
  | append_singleton front last ih =>
    rw [history, foldl_append, foldl_cons, foldl_nil, History.sync] at hmem
    rcases mem_append.1 hmem with hmem | hmem
    · rcases mem_append.1 hmem with hmem | hmem
      · exact (ih hmem).imp_left (mem_append_left _)
      · obtain ⟨id, _, hid⟩ := mem_map.1 hmem
        cases hid
    · obtain ⟨other, hother, heq⟩ := mem_map.1 hmem
      obtain ⟨rfl, rfl⟩ := TrustEvent.accepted.inj heq
      exact ⟨mem_append_right _ mem_cons_self, (accepted_sublist host last _).subset hother⟩

end Invariants

/-- **The import keeps its trust**: in a run of ticks at times that do not go back, every accepted
bundle passes the checks under a listed key, an instance has one bundle in a tick, and its dates
increase over the whole run; between two prunings of its entry one key signs all of them, and no key
has more than ten entries. -/
theorem peer_trust_kept (host : FederationHost) (ticks : List SyncTick)
    (htimes : (ticks.map SyncTick.now).Pairwise (· ≤ ·)) (hdiffer : FingerprintsDiffer host ticks) :
    TrustKept host ticks := by
  obtain ⟨now, htrusted⟩ := trusted_history host htimes
  have hgated : ∀ tick bundle, .accepted tick bundle ∈ (history host ticks).events →
      tick ∈ ticks ∧ Passes host tick bundle := fun tick bundle hmem =>
    (imported_of_accepted hmem).imp_right passes_of_imported
  refine ⟨hgated, fun front tick back _ => ?_, htrusted.increasing, fun id part hpart hpruned => ?_,
    fun front hfront key => ?_⟩
  · exact (nodup_imported host tick).sublist ((accepted_sublist host tick _).map instanceId)
  · obtain ⟨front, back, hevents⟩ := hpart
    obtain ⟨fingerprint, hvoice⟩ := htrusted.oneVoice id (front ++ part) ⟨back, hevents⟩
    have hmem : ∀ {tick bundle}, TrustEvent.accepted tick bundle ∈ part → instanceId bundle = id →
        tick ∈ ticks ∧ ∃ key ∈ tick.config.peerKeys, verifiesUnder host bundle key = true ∧
          federatedKeyFingerprint host key = fingerprint := by
      intro tick bundle hin hid
      obtain ⟨htick, hpasses⟩ := hgated tick bundle (hevents ▸ by simp [hin])
      obtain ⟨key, hkey, hverifies, hmatch⟩ := hpasses.verifies
      have hsame := hvoice tick bundle (mem_since_part hpruned hin) hid
      rw [fingerprintOf, hmatch] at hsame
      exact ⟨htick, key, hkey, hverifies, Option.some.inj hsame⟩
    by_cases hany : ∃ tick bundle, TrustEvent.accepted tick bundle ∈ part ∧ instanceId bundle = id
    · obtain ⟨tick, bundle, hin, hid⟩ := hany
      obtain ⟨htick, key, hkey, _, hfingerprint⟩ := hmem hin hid
      refine ⟨key, fun other bundle' hin' hid' => ?_⟩
      obtain ⟨hother, key', hkey', hverifies, hfingerprint'⟩ := hmem hin' hid'
      obtain rfl :=
        hdiffer tick htick key hkey other hother key' hkey' (hfingerprint.trans hfingerprint'.symm)
      exact ⟨hkey', hverifies⟩
    · exact ⟨"", fun tick bundle hin hid => absurd ⟨tick, bundle, hin, hid⟩ hany⟩
  · obtain ⟨_, hfront⟩ := trusted_history host (htimes.sublist (hfront.sublist.map SyncTick.now))
    exact hfront.capped _

/-- A tick that finds one bundle, a day after it was made or later. -/
def sampleTick (days : ℤ) : SyncTick :=
  ⟨⟨true, ["peer-key"]⟩, [sampleBundle "peer-key"], 1767225600000 + days * 86400000, 90⟩

/-- The bundle is accepted on the first day, and not once more on the second. -/
theorem peer_trust_kept_replayed : TrustKept sampleHost [sampleTick 1, sampleTick 2] ∧
    acceptedTimes sampleHost "peer-a" (history sampleHost [sampleTick 1, sampleTick 2]).events =
      [1767225600000] := by
  refine ⟨peer_trust_kept sampleHost [sampleTick 1, sampleTick 2] (by decide) ?_, by decide +kernel⟩
  intro tick htick key hkey tick' htick' key' hkey' _
  have honly : ∀ tick ∈ [sampleTick 1, sampleTick 2], ∀ key ∈ tick.config.peerKeys,
      key = "peer-key" := by decide
  rw [honly tick htick key hkey, honly tick' htick' key' hkey']

end LoopOver.Federation
