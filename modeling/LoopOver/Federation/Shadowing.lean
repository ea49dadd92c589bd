import LoopOver.Federation.Import

/-!
# Whether one peer can silence another

An instance is bound to the key of its entry. The batch is cut down to the last bundle of each
instance before that key is looked at, so that a bundle under another key takes the place of those
before it.

* `outcome_eq` is what a tick accepts of a bound instance: the last of its bundles that pass, if its
  key and date fit.
* **`not_silenced_iff`**: that is the same without the bundles under other keys exactly if the last
  bundle is not one of them, or nothing is lost by it.
* `bundle_shadowed` is a batch in which the bundle of the honest peer is lost.
-/

namespace LoopOver.Federation

open Option List

section Outcome

variable (host : FederationHost)

/-- What a tick accepts of an instance. -/
def SyncTick.outcome (tick : SyncTick) (state : FederatedPeerState) (id : String) :
    Option FederatedSignalBundle :=
  (tick.sync host state).1.accepted.find? fun bundle => instanceId bundle == id

/-- At the time of the tick, the instance has an entry, and it has the fingerprint of the key. -/
def BoundTo (state : FederatedPeerState) (now : ℤ) (id key : String)
    (entry : FederatedPeerStateEntry) : Prop :=
  FederatedPeerState.entry? (Table.deleteWhere (expired now) state) id = some entry ∧
    entry.keyFingerprint = federatedKeyFingerprint host key

/-- A bundle that claims the instance and verifies under another key of the allowlist. -/
def hostile (peerKeys : List String) (id key : String) (bundle : FederatedSignalBundle) : Bool :=
  instanceId bundle == id && peerKeys.any fun other => other != key &&
    verifiesUnder host bundle other

/-- The batch without the bundles of other keys. -/
def SyncTick.withoutHostile (tick : SyncTick) (id key : String) : SyncTick :=
  { tick with
    bundles := tick.bundles.filter fun bundle => !hostile host tick.config.peerKeys id key bundle }

/-- The bundle has the key of the entry, and a date that is newer. -/
def fits (peerKeys : List String) (entry : FederatedPeerStateEntry)
    (bundle : FederatedSignalBundle) :
    Bool :=
  (matchingFederatedKey host bundle peerKeys).any fun key =>
    entry.keyFingerprint == federatedKeyFingerprint host key &&
      decide (entry.lastGeneratedAtMs < (generatedAtMs host bundle).getD 0)

/-- The last bundle of the instance that passes is not under another key; or neither it fits the
entry nor does the last of the others. -/
def Unshadowed (tick : SyncTick) (entry : FederatedPeerStateEntry) (id key : String) : Prop :=
  ∀ last ∈ (tick.validFor host id).getLast?, hostile host tick.config.peerKeys id key last = true →
    fits host tick.config.peerKeys entry last = false ∧
      ∀ own ∈ ((tick.validFor host id).filter fun bundle =>
        !hostile host tick.config.peerKeys id key bundle).getLast?,
        fits host tick.config.peerKeys entry own = false

end Outcome

variable {host : FederationHost} {state : FederatedPeerState} {id key : String}
  {entry : FederatedPeerStateEntry}
  {peerKeys : List String} {now : ℤ} {bundle : FederatedSignalBundle}

/-- Whether a bundle is accepted, where its instance has an entry. -/
theorem consider_of_entry (host : FederationHost) (peerKeys : List String) (now : ℤ)
    (hentry : state.entry? (instanceId bundle) = some entry) :
    (fits host peerKeys entry bundle = true ∧
      ∃ state', consider host peerKeys now state bundle = .ok state') ∨
      fits host peerKeys entry bundle = false ∧
        ∃ reason, consider host peerKeys now state bundle = .error reason := by
  rw [fits, consider]
  cases matchingFederatedKey host bundle peerKeys with
  | none => exact Or.inr ⟨rfl, _, rfl⟩
  | some key =>
    rw [any_some]
    simp only [hentry]
    by_cases hkey : entry.keyFingerprint = federatedKeyFingerprint host key
    · rw [if_neg (not_not.2 hkey), beq_iff_eq.2 hkey, Bool.true_and]
      by_cases hnewer : entry.lastGeneratedAtMs < (generatedAtMs host bundle).getD 0
      · rw [if_neg (not_le.2 hnewer)]
        exact Or.inl ⟨decide_eq_true hnewer, _, rfl⟩
      · rw [if_pos (not_lt.1 hnewer)]
        exact Or.inr ⟨decide_eq_false hnewer, _, rfl⟩
    · rw [if_pos hkey, beq_eq_false_iff_ne.2 hkey]
      exact Or.inr ⟨Bool.false_and _, _, rfl⟩

theorem find?_watermark {bundles : List FederatedSignalBundle} {result : FederatedImportResult}
    (hnodup : (bundles.map instanceId).Nodup) (hentry : state.entry? id = some entry) :
    (bundles.foldl (watermark host peerKeys now) (result, state)).1.accepted.find?
        (fun bundle => instanceId bundle == id) =
      (result.accepted.find? fun bundle => instanceId bundle == id).or
        ((bundles.find? fun bundle => instanceId bundle == id).filter
          (fits host peerKeys entry)) := by
  induction bundles generalizing result state entry with
  | nil => rw [foldl_nil, List.find?_nil, filter_none, or_none]
  | cons bundle rest ih =>
    rw [map_cons, nodup_cons] at hnodup
    rw [foldl_cons]
    by_cases hid : instanceId bundle = id
    · -- No other bundle of the batch is of this instance.
      have hrest : rest.find? (fun bundle => instanceId bundle == id) = none :=
        List.find?_eq_none.2 fun other hother hsame =>
          hnodup.1 (mem_map.2 ⟨other, hother, (eq_of_beq hsame).trans hid.symm⟩)
      have hfound : (bundle :: rest).find? (fun bundle => instanceId bundle == id) = some bundle :=
        List.find?_cons_of_pos (beq_iff_eq.2 hid)
      have hlast : (result.accepted ++ [bundle]).find? (fun bundle => instanceId bundle == id) =
          (result.accepted.find? fun bundle => instanceId bundle == id).or (some bundle) := by
        rw [List.find?_append, List.find?_singleton, if_pos (beq_iff_eq.2 hid)]
      rw [hfound, filter_some]
      subst hid
      rcases consider_of_entry host peerKeys now hentry with ⟨hfits, state', hok⟩ |
        ⟨hfits, reason, herror⟩
      · obtain ⟨⟨renewed, hrenewed, _⟩, _⟩ := entry?_consider hok
        rw [watermark_ok hok, ih hnodup.2 hrenewed, hrest, hfits, if_pos rfl, hlast, filter_none,
          or_none]
      · rw [watermark_error herror, ih hnodup.2 hentry, hrest, hfits, if_neg Bool.false_ne_true,
          filter_none]
    · have hfound : (bundle :: rest).find? (fun bundle => instanceId bundle == id) =
          rest.find? fun bundle => instanceId bundle == id :=
        List.find?_cons_of_neg fun hsame => hid (eq_of_beq hsame)
      rw [hfound]
      cases hconsider : consider host peerKeys now state bundle with
      | error reason => rw [watermark_error hconsider, ih hnodup.2 hentry]
      | ok state' =>
        rw [watermark_ok hconsider,
          ih hnodup.2 (((entry?_consider hconsider).2 id hid).trans hentry), List.find?_append,
          List.find?_singleton, if_neg fun hsame => hid (eq_of_beq hsame), or_none]

/-- **What a tick accepts of a bound instance**: the last of its bundles that pass, if it fits the
entry. -/
theorem outcome_eq (tick : SyncTick)
    (hentry : FederatedPeerState.entry? (Table.deleteWhere (expired tick.now) state) id =
      some entry) :
    tick.outcome host state id =
      (tick.validFor host id).getLast?.filter (fits host tick.config.peerKeys entry) := by
  rw [SyncTick.outcome, SyncTick.sync, applyFederatedPeerWatermarks,
    find?_watermark (nodup_imported host tick) hentry, find?_imported, List.find?_nil, none_or]

theorem validFor_withoutHostile (host : FederationHost) (tick : SyncTick) (id key : String) :
    (tick.withoutHostile host id key).validFor host id =
      (tick.validFor host id).filter fun bundle =>
        !hostile host tick.config.peerKeys id key bundle :=
  filter_comm _ _ _

/-- **No peer silences another exactly where the last bundle is not its own**: for an instance that
is bound to a key, the tick accepts the same bundle, or none, as without the bundles of other keys,
exactly if the last of its bundles that pass is not under another key, or no bundle is lost by
it. -/
theorem not_silenced_iff (host : FederationHost) (tick : SyncTick) (state : FederatedPeerState)
    (id key : String) (entry : FederatedPeerStateEntry)
    (hbound : BoundTo host state tick.now id key entry) :
    tick.outcome host state id = (tick.withoutHostile host id key).outcome host state id ↔
      Unshadowed host tick entry id key := by
  have hown : (tick.withoutHostile host id key).outcome host state id = _ :=
    outcome_eq (tick.withoutHostile host id key) hbound.1
  rw [outcome_eq tick hbound.1, hown, validFor_withoutHostile, Unshadowed]
  show _ = Option.filter (fits host tick.config.peerKeys entry) _ ↔ _
  rcases eq_nil_or_concat (tick.validFor host id) with hnone | ⟨front, last, hvalid⟩
  · rw [hnone]
    simp
  · rw [hvalid, concat_eq_append, filter_append, filter_singleton, List.getLast?_concat]
    cases hhostile : hostile host tick.config.peerKeys id key last with
    | false => simp [hhostile]
    | true =>
      simp only [Bool.not_true, cond_false, append_nil, mem_some_iff, forall_eq', hhostile,
        true_imp_iff]
      rw [filter_some]
      constructor
      · intro hsame
        split at hsame
        · have hin := (mem_filter.1 (mem_of_getLast? (filter_eq_some_iff.1 hsame.symm).1)).2
          rw [hhostile] at hin
          cases hin
        · next hfits =>
          exact ⟨Bool.not_eq_true _ ▸ hfits, fun own hown =>
            Bool.not_eq_true _ ▸ filter_eq_none_iff.1 hsame.symm own hown⟩
      · rintro ⟨hlast, hown⟩
        rw [if_neg (by rw [hlast]; exact Bool.false_ne_true)]
        exact (filter_eq_none_iff.2 fun own hmem =>
          by rw [hown own hmem]; exact Bool.false_ne_true).symm

/-- The honest peer is known since the day before its bundle. -/
def sampleState : FederatedPeerState :=
  [⟨"peer-a", sampleHost.sha256 "peer-key", 1767139200000, 1767139200000, 1767139200000⟩]

/-- Both keys are listed. -/
def contestedTick (keys : List String) : SyncTick :=
  ⟨⟨true, ["peer-key", "other-key"]⟩, keys.map sampleBundle, 1767312000000, 90⟩

section Contest

variable {keys : List String}

theorem boundTo_sampleState : BoundTo sampleHost sampleState 1767312000000 "peer-a" "peer-key"
    ⟨"peer-a", sampleHost.sha256 "peer-key", 1767139200000, 1767139200000, 1767139200000⟩ :=
  ⟨by decide +kernel, rfl⟩

theorem matchingFederatedKey_sampleBundle {key : String} (hkey : key ∈ ["peer-key", "other-key"]) :
    matchingFederatedKey sampleHost (sampleBundle key) ["peer-key", "other-key"] = some key := by
  simp only [matchingFederatedKey, foldl_cons, foldl_nil, verifiesUnder_sampleBundle]
  revert key
  decide +kernel

/-- What the checks of a bundle ask for besides the signature. -/
theorem sampleBundle_checked : ∀ key ∈ ["peer-key", "other-key"],
    numberField (sampleBundle key) "schemaVersion" = some federatedBundleSchemaVersion ∧
      isBundleBodyShaped (sampleBundle key) = true ∧ isBundleBodyInRange (sampleBundle key) = true ∧
      numberField (sampleBundle key) "windowDays" = some 90 ∧
      staleOrFuture sampleHost (sampleBundle key) 1767312000000 = false ∧
      (numberField (sampleBundle key) "decided").any
        (fun decided => decided < minDecided) = false := by
  decide +kernel

theorem validFor_contestedTick (hkeys : ∀ key ∈ keys, key ∈ ["peer-key", "other-key"]) :
    (contestedTick keys).validFor sampleHost "peer-a" = keys.map sampleBundle := by
  refine filter_eq_self.2 fun bundle hbundle => ?_
  obtain ⟨key, hkey, rfl⟩ := mem_map.1 hbundle
  have hverified : verifyFederatedBundle sampleHost (sampleBundle key) ["peer-key",
      "other-key"] = true := by
    rw [verifyFederatedBundle, matchingFederatedKey_sampleBundle (hkeys key hkey), isSome_some]
  have hvalid : (contestedTick keys).valid sampleHost (sampleBundle key) = true := by
    obtain ⟨hversion, hshaped, hrange, hwindow, hrecent, hsample⟩ :=
      sampleBundle_checked key (hkeys key hkey)
    have haccepted : rejectionFor sampleHost (sampleBundle key) ["peer-key",
        "other-key"] 1767312000000 90 = none := by
      simp [rejectionFor, hverified, hversion, hshaped, hrange, hwindow, hrecent, hsample]
    exact congrArg (· == none) haccepted
  rw [hvalid]
  rfl

theorem hostile_sampleBundle {key : String} (hkey : key ∈ ["peer-key", "other-key"]) :
    hostile sampleHost (contestedTick keys).config.peerKeys "peer-a" "peer-key" (sampleBundle key) =
      (key != "peer-key") := by
  have hid : instanceId (sampleBundle key) = "peer-a" := rfl
  simp only [hostile, hid, contestedTick, verifiesUnder_sampleBundle]
  revert key
  decide +kernel

/-- Only the bundle of the honest peer fits its entry. -/
theorem fits_sampleBundle {key : String} (hkey : key ∈ ["peer-key", "other-key"]) :
    fits sampleHost (contestedTick keys).config.peerKeys
      ⟨"peer-a", sampleHost.sha256 "peer-key", 1767139200000, 1767139200000,
        1767139200000⟩ (sampleBundle key) =
        (key == "peer-key") := by
  have hmatching : matchingFederatedKey sampleHost (sampleBundle key)
      (contestedTick keys).config.peerKeys = some key :=
    matchingFederatedKey_sampleBundle hkey
  have hdate : generatedAtMs sampleHost (sampleBundle key) = some 1767225600000 := rfl
  rw [fits, hmatching, any_some, hdate]
  clear hmatching hdate
  revert key
  decide +kernel

end Contest

/-- The bundle of the other key comes first, and does no harm. -/
theorem not_silenced_iff_first :
    (contestedTick ["other-key", "peer-key"]).outcome sampleHost sampleState "peer-a" =
      ((contestedTick ["other-key", "peer-key"]).withoutHostile sampleHost "peer-a"
        "peer-key").outcome sampleHost
        sampleState "peer-a" := by
  refine (not_silenced_iff sampleHost (contestedTick ["other-key", "peer-key"]) sampleState "peer-a"
    "peer-key" _
    boundTo_sampleState).2 fun last hlast hhostile => ?_
  rw [validFor_contestedTick (by decide)] at hlast
  obtain rfl : sampleBundle "peer-key" = last := Option.some.inj hlast
  rw [hostile_sampleBundle (by decide)] at hhostile
  exact absurd hhostile (by decide)

/-- **A bundle is lost**: it is the honest peer's, under the key that its instance is bound to, and
a bundle of another listed key comes after it. -/
theorem bundle_shadowed :
    ∃ (tick : SyncTick) (entry : FederatedPeerStateEntry),
      BoundTo sampleHost sampleState tick.now "peer-a" "peer-key" entry ∧
        tick.outcome sampleHost sampleState "peer-a" = none ∧
        ((tick.withoutHostile sampleHost "peer-a" "peer-key").outcome sampleHost sampleState
          "peer-a").isSome := by
  let tick := contestedTick ["peer-key", "other-key"]
  have hvalid : tick.validFor sampleHost "peer-a" =
      [sampleBundle "peer-key", sampleBundle "other-key"] :=
    validFor_contestedTick (by decide)
  have hleft : (tick.withoutHostile sampleHost "peer-a" "peer-key").validFor sampleHost "peer-a" =
      [sampleBundle "peer-key"] := by
    rw [validFor_withoutHostile, hvalid,
      filter_cons_of_pos (by rw [hostile_sampleBundle (by decide)]; decide),
      filter_cons_of_neg (by rw [hostile_sampleBundle (by decide)]; decide), filter_nil]
  refine ⟨tick, _, boundTo_sampleState, ?_, ?_⟩
  · rw [outcome_eq tick boundTo_sampleState.1, hvalid]
    exact filter_some_neg (fits_sampleBundle (by decide))
  · rw [outcome_eq (tick.withoutHostile sampleHost "peer-a" "peer-key") boundTo_sampleState.1,
      hleft]
    have hfits : fits sampleHost tick.config.peerKeys _ (sampleBundle "peer-key") = true :=
      fits_sampleBundle (by decide)
    exact isSome_of_eq_some (filter_some_pos hfits)

end LoopOver.Federation
