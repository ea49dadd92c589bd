import LoopOver.Contract.Digest
import LoopOver.Foundations.Table
import LoopOver.Queue.Keys

/-!
# Importing the bundles of peers

`src/orb/federated-import.ts` decides which calibration bundles of other instances may count. A
bundle is signed with the key of its sender, and the operator lists the keys that are trusted.

* `rejectionFor` has the checks that look at one bundle: its schema, shape, ranges, signature,
  window, age and sample.
* `importPeerBundles` makes them for a batch, and keeps the last bundle of each instance.
* `applyFederatedPeerWatermarks` has the checks that need the state which is kept between the ticks:
  an instance is bound to the key that first spoke for it, its bundles get newer, and one key speaks
  for at most ten instances.

`find?_imported` is what a batch gives for an instance, and `consider_cases` what an accepted bundle
does to the state.

`FederationHost` stands for the two hashes, for `JSON.stringify` and for `Date.parse`. The state is
a JavaScript object whose keys a peer chooses, so that a name such as `constructor` finds what every
object inherits.
-/

namespace LoopOver.Federation

open Queue (JsonValue)
open List

structure FederationHost where
  /-- The HMAC of a message under a key, in hexadecimal. -/
  hmacSha256 : String → String → String
  /-- The hash of a text, in hexadecimal. -/
  sha256 : String → String
  stringify : JsonValue → String
  /-- `Date.parse`; nothing where it is not a number. -/
  dateParse : String → Option ℤ

/-- A bundle as it came from a peer. -/
abbrev FederatedSignalBundle := JsonValue

/-- Why a bundle is not taken. -/
inductive FederatedRejectionReason
  | notOptedIn
  | noTrustedPeers
  | unsupportedSchemaVersion
  | malformed
  | untrustedOrTampered
  | outOfRange
  | windowMismatch
  | staleOrFuture
  | belowMinDecided
  | replayedOrRollback
  | instanceKeyConflict
  | sybilCapExceeded
  deriving DecidableEq

structure FederatedRejection where
  instanceId : Option String
  reason : FederatedRejectionReason
  deriving DecidableEq

/-- What a batch comes to. -/
structure FederatedImportResult where
  accepted : List FederatedSignalBundle
  rejected : List FederatedRejection

/-- `federatedIntelligence` of the manifest. -/
structure FederatedConfig where
  enabled : Bool
  peerKeys : List String

def federatedBundleSchemaVersion : ℚ := 1

def maxBundleAgeMs : ℤ := 7 * 86400000

def maxClockSkewMs : ℤ := 5 * 60000

def maxInstanceIdChars : ℕ := 128

def maxInstancesPerKey : ℕ := 10

def peerStatePruneAfterMs : ℤ := 400 * 86400000

def minDecided : ℚ := 5

/-! ## One bundle -/

section Bundle

variable (host : FederationHost) (bundle : FederatedSignalBundle)

/-- The text in a field, where there is one. -/
def textField (name : String) : Option String := (bundle.property? name).bind JsonValue.text?

/-- The number in a field, where there is one. -/
def numberField (name : String) : Option ℚ := (bundle.property? name).bind JsonValue.number?

def isNull : Option JsonValue → Bool
  | some .null => true
  | _ => false

/-- The field holds a number. -/
def numeric (name : String) : Bool := (numberField bundle name).isSome

/-- The field holds a number or `null`. -/
def nullableNumeric (name : String) : Bool := isNull (bundle.property? name) || numeric bundle name

/-- Every field is there, with its type. -/
def isBundleBodyShaped : Bool :=
  (textField bundle "instanceId").any (fun id => 0 < textLength id &&
    textLength id ≤ maxInstanceIdChars) &&
    (textField bundle "generatedAt").isSome && (textField bundle "signature").isSome &&
    ["windowDays", "decided", "reversalRate", "slopRate", "copycatRate"].all (numeric bundle) &&
    ["mergePrecision", "closePrecision", "fpRate", "fnRate", "cycleP50Ms",
      "cycleP95Ms"].all (nullableNumeric bundle)

def unitRate (value : Option ℚ) : Bool := value.all fun rate => 0 ≤ rate && rate ≤ 1

def nonNegative (value : Option ℚ) : Bool := value.all fun count => 0 ≤ count

/-- The window is positive, rates are in [0, 1], counts not negative. -/
def isBundleBodyInRange : Bool :=
  (numberField bundle "windowDays").all (fun days => 0 < days) &&
    nonNegative (numberField bundle "decided") &&
    ["reversalRate", "slopRate", "copycatRate", "mergePrecision", "closePrecision", "fpRate",
      "fnRate"].all
      (fun name => unitRate (numberField bundle name)) &&
    nonNegative (numberField bundle "cycleP50Ms") &&
      nonNegative (numberField bundle "cycleP95Ms") &&
    (numberField bundle "cycleP50Ms").all fun p50 =>
      (numberField bundle "cycleP95Ms").all fun p95 => p50 ≤ p95

/-- The fields that a signature covers, in their order. -/
def bodyFields : List String :=
  ["schemaVersion", "instanceId", "generatedAt", "windowDays", "decided", "mergePrecision",
    "closePrecision", "fpRate",
    "fnRate", "reversalRate", "cycleP50Ms", "cycleP95Ms", "slopRate", "copycatRate"]

def canonicalizeFederatedBundleBody : String :=
  host.stringify
    (.array (bodyFields.map fun name => .array [.string name, (bundle.property? name).getD .null]))

def hexValue (c : Char) : Option ℕ :=
  if c.isDigit then some (c.toNat - '0'.toNat)
  else if 'a' ≤ c ∧ c ≤ 'f' then some (c.toNat - 'a'.toNat + 10)
  else if 'A' ≤ c ∧ c ≤ 'F' then some (c.toNat - 'A'.toNat + 10)
  else none

def hexPairs : List Char → Option (List ℕ)
  | [] => some []
  | [_] => none
  | high :: low :: rest => do
    let high ← hexValue high
    let low ← hexValue low
    let rest ← hexPairs rest
    return (high * 16 + low) :: rest

def hexToBytes (hex : String) : Option (List ℕ) := if hex = "" then none else hexPairs hex.toList

def timingSafeEqualHex (left right : String) : Bool :=
  match hexToBytes left, hexToBytes right with
  | some left, some right => left == right
  | _, _ => false

/-- The signature is that of the key. -/
def verifiesUnder (key : String) : Bool :=
  timingSafeEqualHex ((textField bundle "signature").getD "")
    (host.hmacSha256 key (canonicalizeFederatedBundleBody host bundle))

/-- All keys are tried, and the last one that matches is taken. -/
def matchingFederatedKey (peerKeys : List String) : Option String :=
  peerKeys.foldl (fun matched key => if verifiesUnder host bundle key then some key
    else matched) none

def verifyFederatedBundle (peerKeys : List String) : Bool :=
  (matchingFederatedKey host bundle peerKeys).isSome

def generatedAtMs : Option ℤ := (textField bundle "generatedAt").bind host.dateParse

/-- `now - generatedAtMs > MAX_BUNDLE_AGE_MS || generatedAtMs - now > MAX_CLOCK_SKEW_MS`, or no date
at all. -/
def staleOrFuture (now : ℤ) : Bool :=
  (generatedAtMs host bundle).all fun generatedAt =>
    maxBundleAgeMs < now - generatedAt || maxClockSkewMs < generatedAt - now

def rejectionFor (peerKeys : List String) (now : ℤ) (localWindowDays : ℚ) :
    Option FederatedRejectionReason :=
  if numberField bundle "schemaVersion" ≠ some federatedBundleSchemaVersion then
    some .unsupportedSchemaVersion
  else if !isBundleBodyShaped bundle then some .malformed
  else if !isBundleBodyInRange bundle then some .outOfRange
  else if !verifyFederatedBundle host bundle peerKeys then some .untrustedOrTampered
  else if numberField bundle "windowDays" ≠ some localWindowDays then some .windowMismatch
  else if staleOrFuture host bundle now then some .staleOrFuture
  else if (numberField bundle "decided").any (fun decided => decided < minDecided) then
    some .belowMinDecided
  else none

/-- The claimed handle, if there is one. -/
def instanceIdOf : Option String := textField bundle "instanceId"

/-- `bundle.instanceId`, once the shape of the bundle has been checked. -/
def instanceId : String := (instanceIdOf bundle).getD ""

end Bundle

/-! ## A batch -/

section Batch

variable (host : FederationHost)

/-- `acceptedByInstance.set(bundle.instanceId, bundle)`. -/
def setInstance (accepted : List FederatedSignalBundle) (bundle : FederatedSignalBundle) :
    List FederatedSignalBundle :=
  if accepted.any fun other => instanceId other == instanceId bundle then
    Table.updateWhere (fun other => instanceId other == instanceId bundle)
      (fun _ => bundle) accepted
  else accepted ++ [bundle]

/-- One turn of the loop of `importPeerBundles`. -/
def importBundle (peerKeys : List String) (now : ℤ) (localWindowDays : ℚ)
    (result : FederatedImportResult) (bundle : FederatedSignalBundle) : FederatedImportResult :=
  match rejectionFor host bundle peerKeys now localWindowDays with
  | some reason => { result with rejected := result.rejected ++ [⟨instanceIdOf bundle, reason⟩] }
  | none => { result with accepted := setInstance result.accepted bundle }

def importPeerBundles (config : FederatedConfig) (bundles : List FederatedSignalBundle) (now : ℤ)
    (localWindowDays : ℚ) : FederatedImportResult :=
  if !config.enabled then ⟨[], bundles.map fun bundle => ⟨instanceIdOf bundle, .notOptedIn⟩⟩
  else if config.peerKeys = [] then
    ⟨[], bundles.map fun bundle => ⟨instanceIdOf bundle, .noTrustedPeers⟩⟩
  else bundles.foldl (importBundle host config.peerKeys now localWindowDays) ⟨[], []⟩

end Batch

/-! ## What is kept between the ticks -/

/-- An entry of the peer state, with the instance that it is filed under. -/
structure FederatedPeerStateEntry where
  instanceId : String
  keyFingerprint : String
  lastGeneratedAtMs : ℤ
  lastSeenAtMs : ℤ
  firstSeenAtMs : ℤ
  deriving DecidableEq

abbrev FederatedPeerState := List FederatedPeerStateEntry

/-- The names that every object has from `Object.prototype`. -/
def inheritedNames : List String :=
  ["__proto__", "constructor", "hasOwnProperty", "isPrototypeOf", "propertyIsEnumerable",
    "toLocaleString", "toString",
    "valueOf", "__defineGetter__", "__defineSetter__", "__lookupGetter__", "__lookupSetter__"]

section Watermarks

variable (host : FederationHost)

def federatedKeyFingerprint (key : String) : String := host.sha256 key

/-- `state[id]`, of the entries themselves. -/
def FederatedPeerState.entry? (state : FederatedPeerState) (id : String) :
    Option FederatedPeerStateEntry :=
  state.find? fun entry => entry.instanceId == id

def expired (now : ℤ) (entry : FederatedPeerStateEntry) : Bool :=
  peerStatePruneAfterMs < now - entry.lastSeenAtMs

def liveInstancesForKey (fingerprint : String) (state : FederatedPeerState) : ℕ :=
  state.countP fun entry => entry.keyFingerprint == fingerprint

/-- One turn of the loop of `applyFederatedPeerWatermarks`: the state afterwards, if the bundle is
accepted. That its date parses has been checked before. -/
def consider (peerKeys : List String) (now : ℤ) (state : FederatedPeerState)
    (bundle : FederatedSignalBundle) :
    Except FederatedRejectionReason FederatedPeerState :=
  match matchingFederatedKey host bundle peerKeys with
  | none => .error .untrustedOrTampered
  | some key =>
    let fingerprint := federatedKeyFingerprint host key
    let generatedAt := (generatedAtMs host bundle).getD 0
    match state.entry? (instanceId bundle) with
    | some existing =>
      if existing.keyFingerprint ≠ fingerprint then .error .instanceKeyConflict
      else if generatedAt ≤ existing.lastGeneratedAtMs then .error .replayedOrRollback
      else
        .ok (Table.updateWhere (fun entry => entry.instanceId == instanceId bundle)
          (fun entry => ⟨entry.instanceId, fingerprint, generatedAt, now, existing.firstSeenAtMs⟩)
            state)
    | none =>
      -- A function that the object inherits counts as an entry, and has no fingerprint.
      if inheritedNames.contains (instanceId bundle) then .error .instanceKeyConflict
      else if maxInstancesPerKey ≤ liveInstancesForKey fingerprint state then
        .error .sybilCapExceeded
      else .ok (state ++ [⟨instanceId bundle, fingerprint, generatedAt, now, now⟩])

/-- The result so far, and the state. -/
def watermark (peerKeys : List String) (now : ℤ)
    (progress : FederatedImportResult × FederatedPeerState) (bundle : FederatedSignalBundle) :
    FederatedImportResult × FederatedPeerState :=
  match consider host peerKeys now progress.2 bundle with
  | .error reason =>
    ({ progress.1 with rejected := progress.1.rejected ++ [⟨some (instanceId bundle), reason⟩] },
      progress.2)
  | .ok state => ({ progress.1 with accepted := progress.1.accepted ++ [bundle] }, state)

def applyFederatedPeerWatermarks (result : FederatedImportResult) (peerKeys : List String) (now : ℤ)
    (state : FederatedPeerState) : FederatedImportResult × FederatedPeerState :=
  result.accepted.foldl (watermark host peerKeys now) (⟨[], result.rejected⟩,
    Table.deleteWhere (expired now) state)

/-- A tick of the synchronization, of `src/orb/federated-benchmark.ts`. -/
structure SyncTick where
  config : FederatedConfig
  bundles : List FederatedSignalBundle
  now : ℤ
  localWindowDays : ℚ

def SyncTick.imported (tick : SyncTick) : FederatedImportResult :=
  importPeerBundles host tick.config tick.bundles tick.now tick.localWindowDays

def SyncTick.sync (tick : SyncTick) (state : FederatedPeerState) :
    FederatedImportResult × FederatedPeerState :=
  applyFederatedPeerWatermarks host (tick.imported host) tick.config.peerKeys tick.now state

end Watermarks

/-! ## What is accepted -/

section Accepted

variable {host : FederationHost} {bundle : FederatedSignalBundle}
  {config : FederatedConfig} {now : ℤ}
  {localWindowDays : ℚ} {bundles accepted : List FederatedSignalBundle}

theorem matchingFederatedKey_cases (host : FederationHost) (bundle : FederatedSignalBundle)
    (peerKeys : List String) :
    (∃ key ∈ peerKeys, verifiesUnder host bundle key = true ∧
      matchingFederatedKey host bundle peerKeys = some key) ∨
      (∀ key ∈ peerKeys, verifiesUnder host bundle key = false) ∧
        matchingFederatedKey host bundle peerKeys = none := by
  induction peerKeys using List.reverseRecOn with
  | nil => exact Or.inr ⟨fun _ hkey => absurd hkey not_mem_nil, rfl⟩
  | append_singleton front key ih =>
    have hlast : matchingFederatedKey host bundle (front ++ [key]) =
        if verifiesUnder host bundle key then some key
          else matchingFederatedKey host bundle front := by
      rw [matchingFederatedKey, foldl_append]
      rfl
    rw [hlast]
    cases hverifies : verifiesUnder host bundle key with
    | true => exact Or.inl ⟨key, by simp, hverifies, rfl⟩
    | false =>
      refine ih.imp ?_ ?_
      · rintro ⟨other, hother, hmatch⟩
        exact ⟨other, mem_append_left _ hother, hmatch⟩
      · rintro ⟨hnone, hmatch⟩
        refine ⟨fun other hother => ?_, hmatch⟩
        rcases mem_append.1 hother with hfront | hsame
        · exact hnone other hfront
        · rwa [mem_singleton.1 hsame]

/-- A bundle that may count: what the stateless checks promise, for the tick that accepts it. -/
structure Passes (host : FederationHost) (tick : SyncTick) (bundle : FederatedSignalBundle) :
    Prop where
  enabled : tick.config.enabled = true
  verifies : ∃ key ∈ tick.config.peerKeys, verifiesUnder host bundle key = true ∧
    matchingFederatedKey host bundle tick.config.peerKeys = some key
  named : ∃ id, instanceIdOf bundle = some id ∧ 0 < textLength id ∧
    textLength id ≤ maxInstanceIdChars
  inRange : isBundleBodyInRange bundle = true
  window : numberField bundle "windowDays" = some tick.localWindowDays
  sample : ∃ decided, numberField bundle "decided" = some decided ∧ minDecided ≤ decided
  recent : ∃ generatedAt, generatedAtMs host bundle = some generatedAt ∧
    tick.now - generatedAt ≤ maxBundleAgeMs ∧
    generatedAt - tick.now ≤ maxClockSkewMs

/-- The shape gives the two fields that have to be there. -/
theorem shaped_fields (h : isBundleBodyShaped bundle = true) :
    (∃ id, instanceIdOf bundle = some id ∧ 0 < textLength id ∧ textLength id ≤ maxInstanceIdChars) ∧
      ∃ decided, numberField bundle "decided" = some decided := by
  simp only [isBundleBodyShaped, Bool.and_eq_true, Option.any_eq_true, decide_eq_true_iff,
    all_cons] at h
  obtain ⟨⟨⟨⟨⟨id, hid, hlength⟩, _⟩, _⟩, hnumbers⟩, _⟩ := h
  exact ⟨⟨id, hid, hlength⟩, Option.isSome_iff_exists.1 hnumbers.2.1⟩

variable {tick : SyncTick}

theorem passes_of_rejectionFor (henabled : tick.config.enabled = true)
    (h : rejectionFor host bundle tick.config.peerKeys tick.now tick.localWindowDays = none) :
    Passes host tick bundle := by
  simp only [rejectionFor, ite_eq_right_iff, reduceCtorEq, imp_false, ite_eq_iff, and_false,
    false_or, not_not, Bool.not_eq_true, Bool.not_eq_false'] at h
  obtain ⟨_, hshaped, hrange, hverified, hwindow, hrecent, hsample⟩ := h
  obtain ⟨hnamed, decided, hdecided⟩ := shaped_fields hshaped
  refine ⟨henabled, ?_, hnamed, hrange, hwindow, ⟨decided, hdecided, ?_⟩, ?_⟩
  · rcases matchingFederatedKey_cases host bundle tick.config.peerKeys with hmatch | ⟨_, hnone⟩
    · exact hmatch
    · rw [verifyFederatedBundle, hnone] at hverified
      cases hverified
  · simpa [hdecided] using hsample
  · rw [staleOrFuture] at hrecent
    cases hdate : generatedAtMs host bundle with
    | none => rw [hdate] at hrecent; cases hrecent
    | some generatedAt =>
      rw [hdate, Option.all_some, Bool.or_eq_false_iff, decide_eq_false_iff_not,
        decide_eq_false_iff_not, not_lt, not_lt] at hrecent
      exact ⟨generatedAt, rfl, hrecent⟩

/-- The bundle passes the checks of the tick. -/
def SyncTick.valid (host : FederationHost) (tick : SyncTick) (bundle : FederatedSignalBundle) :
    Bool :=
  tick.config.enabled &&
    rejectionFor host bundle tick.config.peerKeys tick.now tick.localWindowDays == none

theorem passes_of_valid (h : tick.valid host bundle = true) : Passes host tick bundle := by
  rw [SyncTick.valid, Bool.and_eq_true, beq_iff_eq] at h
  exact passes_of_rejectionFor h.1 h.2

/-- The bundles of an instance in a batch that pass, in their order. -/
def SyncTick.validFor (host : FederationHost) (tick : SyncTick) (id : String) :
    List FederatedSignalBundle :=
  tick.bundles.filter fun bundle => tick.valid host bundle && instanceId bundle == id

theorem instanceId_of_find? {id : String} {other : FederatedSignalBundle}
    (h : accepted.find? (fun other => instanceId other == id) = some other) :
    instanceId other = id := by
  simpa using List.find?_some h

theorem find?_setInstance (accepted : List FederatedSignalBundle) (bundle : FederatedSignalBundle)
    (id : String) :
    (setInstance accepted bundle).find? (fun other => instanceId other == id) =
      if instanceId bundle = id then some bundle
        else accepted.find? fun other => instanceId other == id := by
  rw [setInstance]
  split
  · next hany =>
    have hkeys : ∀ other : FederatedSignalBundle, (instanceId other == instanceId bundle) = true →
        instanceId bundle = instanceId other := fun _ hother => (eq_of_beq hother).symm
    rw [Table.find?_key_updateWhere instanceId hkeys]
    cases hfind : accepted.find? fun other => instanceId other == id with
    | none =>
      obtain ⟨other, hother, hsame⟩ := any_eq_true.1 hany
      have hne : instanceId bundle ≠ id := fun hid =>
        List.find?_eq_none.1 hfind other hother (hid ▸ hsame)
      rw [if_neg hne]
      rfl
    | some other =>
      rw [Option.map_some, instanceId_of_find? hfind]
      by_cases hid : instanceId bundle = id
      · rw [if_pos hid, if_pos (beq_iff_eq.2 hid.symm)]
      · rw [if_neg hid, if_neg fun hsame => hid (eq_of_beq hsame).symm]
  · next hnone =>
    rw [List.find?_append, List.find?_singleton]
    by_cases hid : instanceId bundle = id
    · have hfind : accepted.find? (fun other => instanceId other == id) = none :=
        List.find?_eq_none.2 fun other hother hsame =>
          hnone (any_eq_true.2 ⟨other, hother, by rw [hid]; exact hsame⟩)
      rw [hfind, if_pos hid, if_pos (beq_iff_eq.2 hid), Option.none_or]
    · rw [if_neg hid, if_neg (by rwa [beq_iff_eq]), Option.or_none]

theorem nodup_setInstance (h : (accepted.map instanceId).Nodup) :
    ((setInstance accepted bundle).map instanceId).Nodup := by
  rw [setInstance]
  split
  · have hkeys : ∀ other : FederatedSignalBundle, (instanceId other == instanceId bundle) = true →
        instanceId bundle = instanceId other := fun _ hother => (eq_of_beq hother).symm
    rw [Table.keys_updateWhere hkeys]
    exact h
  · next hnone =>
    refine Table.nodup_keys_concat h fun hmem => hnone ?_
    obtain ⟨other, hother, hid⟩ := mem_map.1 hmem
    exact any_eq_true.2 ⟨other, hother, beq_iff_eq.2 hid⟩

/-- The loop over a batch keeps one bundle of each instance: the last that passes. -/
theorem foldl_importBundle (host : FederationHost) (peerKeys : List String) (now : ℤ)
    (localWindowDays : ℚ) (bundles : List FederatedSignalBundle) :
    let accepted :=
      (bundles.foldl (importBundle host peerKeys now localWindowDays) ⟨[], []⟩).accepted
    (accepted.map instanceId).Nodup ∧ ∀ id, accepted.find? (fun other => instanceId other == id) =
      (bundles.filter fun bundle =>
        rejectionFor host bundle peerKeys now localWindowDays == none &&
          instanceId bundle == id).getLast? := by
  induction bundles using List.reverseRecOn with
  | nil => exact ⟨nodup_nil, fun _ => rfl⟩
  | append_singleton front bundle ih =>
    obtain ⟨hnodup, hfind⟩ := ih
    simp only [foldl_append, foldl_cons, foldl_nil, filter_append, filter_singleton]
    rw [importBundle]
    cases hreason : rejectionFor host bundle peerKeys now localWindowDays with
    | some reason =>
      refine ⟨hnodup, fun id => (hfind id).trans ?_⟩
      simp
    | none =>
      refine ⟨nodup_setInstance hnodup, fun id => (find?_setInstance _ bundle id).trans ?_⟩
      by_cases hid : instanceId bundle = id
      · simp [hid]
      · have hother : (instanceId bundle == id) = false := beq_eq_false_iff_ne.2 hid
        simpa [hid, hother] using hfind id

theorem nodup_imported (host : FederationHost) (tick : SyncTick) :
    ((tick.imported host).accepted.map instanceId).Nodup := by
  rw [SyncTick.imported, importPeerBundles]
  split
  · exact nodup_nil
  · split
    · exact nodup_nil
    · exact (foldl_importBundle host tick.config.peerKeys tick.now tick.localWindowDays
        tick.bundles).1

/-- **What a batch gives for an instance**: the last of its bundles that pass. -/
theorem find?_imported (host : FederationHost) (tick : SyncTick) (id : String) :
    (tick.imported host).accepted.find? (fun other => instanceId other == id) =
      (tick.validFor host id).getLast? := by
  rw [SyncTick.imported, importPeerBundles]
  split
  · next hdisabled =>
    have hnone : tick.validFor host id = [] := by
      rw [SyncTick.validFor, filter_eq_nil_iff]
      intro bundle _
      rw [Bool.not_eq_true'] at hdisabled
      simp [SyncTick.valid, hdisabled]
    rw [hnone]
    rfl
  · next henabled =>
    rw [Bool.not_eq_true', Bool.not_eq_false] at henabled
    split
    · next hkeys =>
      have hnone : tick.validFor host id = [] := by
        rw [SyncTick.validFor, filter_eq_nil_iff]
        intro bundle _ hvalid
        rw [Bool.and_eq_true] at hvalid
        obtain ⟨key, hkey, _⟩ := (passes_of_valid hvalid.1).verifies
        rw [hkeys] at hkey
        exact not_mem_nil hkey
      rw [hnone]
      rfl
    · have hloop :=
        (foldl_importBundle host tick.config.peerKeys tick.now tick.localWindowDays tick.bundles).2
          id
      simpa only [SyncTick.validFor, SyncTick.valid, henabled, Bool.true_and] using hloop

theorem passes_of_imported (h : bundle ∈ (tick.imported host).accepted) :
    Passes host tick bundle := by
  have hfind : (tick.imported host).accepted.find?
      (fun other => instanceId other == instanceId bundle) =
      some bundle := by
    cases hother : (tick.imported host).accepted.find? fun other =>
      instanceId other == instanceId bundle with
    | none => exact absurd (beq_self_eq_true _) (List.find?_eq_none.1 hother bundle h)
    | some other =>
      rw [Table.eq_of_key (nodup_imported host tick) (mem_of_find?_eq_some hother) h
        (instanceId_of_find? hother)]
  rw [find?_imported] at hfind
  have hvalid := mem_filter.1 (mem_of_getLast? hfind)
  exact passes_of_valid (Bool.and_eq_true_iff.1 hvalid.2).1

end Accepted

/-! ## What an accepted bundle does -/

section Admit

variable {host : FederationHost} {peerKeys : List String} {now : ℤ} {bundle : FederatedSignalBundle}
  {state state' : FederatedPeerState}

def fingerprintOf (host : FederationHost) (peerKeys : List String)
    (bundle : FederatedSignalBundle) :
    Option String :=
  (matchingFederatedKey host bundle peerKeys).map (federatedKeyFingerprint host)

/-- **What an accepted bundle does**: it renews the entry of its instance, which has its key and an
older date, or makes one, where there is none and the key has room. -/
theorem consider_cases (hconsider : consider host peerKeys now state bundle = .ok state') :
    ∃ fingerprint, fingerprintOf host peerKeys bundle = some fingerprint ∧
      ((∃ existing, state.entry? (instanceId bundle) = some existing ∧
        existing.keyFingerprint = fingerprint ∧
          existing.lastGeneratedAtMs < (generatedAtMs host bundle).getD 0 ∧
          state' = Table.updateWhere (fun entry => entry.instanceId == instanceId bundle)
            (fun entry => ⟨entry.instanceId, fingerprint, (generatedAtMs host bundle).getD 0, now,
              existing.firstSeenAtMs⟩) state) ∨
        state.entry? (instanceId bundle) = none ∧
          liveInstancesForKey fingerprint state < maxInstancesPerKey ∧
          state' = state ++
            [⟨instanceId bundle, fingerprint, (generatedAtMs host bundle).getD 0, now, now⟩]) := by
  rw [consider] at hconsider
  rw [fingerprintOf]
  cases hmatch : matchingFederatedKey host bundle peerKeys with
  | none => rw [hmatch] at hconsider; cases hconsider
  | some key =>
    rw [hmatch] at hconsider
    refine ⟨federatedKeyFingerprint host key, rfl, ?_⟩
    cases hentry : state.entry? (instanceId bundle) with
    | some existing =>
      simp only [hentry] at hconsider
      split at hconsider
      · cases hconsider
      · next hsame =>
        split at hconsider
        · cases hconsider
        · next hnewer =>
          exact Or.inl ⟨existing, rfl, not_not.1 hsame, not_le.1 hnewer,
            (Except.ok.inj hconsider).symm⟩
    | none =>
      simp only [hentry] at hconsider
      split at hconsider
      · cases hconsider
      · split at hconsider
        · cases hconsider
        · next hroom => exact Or.inr ⟨rfl, not_le.1 hroom, (Except.ok.inj hconsider).symm⟩

/-- Afterwards the entry of the instance is that of the bundle, and the others are as they were. -/
theorem entry?_consider (hconsider : consider host peerKeys now state bundle = .ok state') :
    (∃ entry, state'.entry? (instanceId bundle) = some entry ∧
        fingerprintOf host peerKeys bundle = some entry.keyFingerprint ∧
        entry.lastGeneratedAtMs = (generatedAtMs host bundle).getD 0 ∧ entry.lastSeenAtMs = now) ∧
      ∀ id, instanceId bundle ≠ id → state'.entry? id = state.entry? id := by
  obtain ⟨fingerprint, hfingerprint, ⟨existing, hentry, _, _, rfl⟩ | ⟨hentry, _, rfl⟩⟩ :=
    consider_cases hconsider
  · have hfind : ∀ id, FederatedPeerState.entry?
        (Table.updateWhere (fun entry => entry.instanceId == instanceId bundle)
        (fun entry => ⟨entry.instanceId, fingerprint, (generatedAtMs host bundle).getD 0, now,
          existing.firstSeenAtMs⟩) state) id = (state.entry? id).map fun entry =>
        if (entry.instanceId == instanceId bundle) = true then ⟨entry.instanceId, fingerprint,
          (generatedAtMs host bundle).getD 0, now, existing.firstSeenAtMs⟩ else entry :=
      Table.find?_key_updateWhere FederatedPeerStateEntry.instanceId fun _ _ => rfl
    have hid : existing.instanceId = instanceId bundle := by simpa using List.find?_some hentry
    constructor
    · rw [hfind, hentry, Option.map_some, if_pos (beq_iff_eq.2 hid)]
      exact ⟨_, rfl, hfingerprint, rfl, rfl⟩
    · intro id hne
      rw [hfind]
      cases hother : state.entry? id with
      | none => rfl
      | some entry =>
        have hid : entry.instanceId = id := by simpa using List.find?_some hother
        rw [Option.map_some, if_neg (by rw [hid, beq_iff_eq]; exact hne.symm)]
  · have hfind : ∀ id, FederatedPeerState.entry? (state ++ [⟨instanceId bundle, fingerprint,
        (generatedAtMs host bundle).getD 0, now, now⟩]) id = (state.entry? id).or
          (if (instanceId bundle == id) = true then some ⟨instanceId bundle, fingerprint,
            (generatedAtMs host bundle).getD 0, now, now⟩ else none) := fun id => by
      rw [FederatedPeerState.entry?, List.find?_append, List.find?_singleton]
      rfl
    constructor
    · rw [hfind, hentry, Option.none_or, if_pos (beq_self_eq_true _)]
      exact ⟨_, rfl, hfingerprint, rfl, rfl⟩
    · intro id hne
      rw [hfind, if_neg (by rwa [beq_iff_eq]), Option.or_none]

variable {result : FederatedImportResult}

theorem watermark_ok (h : consider host peerKeys now state bundle = .ok state') :
    watermark host peerKeys now (result, state) bundle =
      (⟨result.accepted ++ [bundle], result.rejected⟩, state') := by
  simp only [watermark, h]

theorem watermark_error {reason : FederatedRejectionReason}
    (h : consider host peerKeys now state bundle = .error reason) :
    watermark host peerKeys now (result, state) bundle =
      (⟨result.accepted, result.rejected ++ [⟨some (instanceId bundle), reason⟩]⟩, state) := by
  simp only [watermark, h]

end Admit

/-! ## A bundle -/

/-- The text that is signed of `sampleBundle`. -/
def sampleBody : String :=
  "[[\"schemaVersion\",1],[\"instanceId\",\"peer-a\"],[\"generatedAt\",\"2026-01-01T00:00:00.000Z\"]," ++
    "[\"windowDays\",90],[\"decided\",12],[\"mergePrecision\",1],[\"closePrecision\",null],[\"fpRate\",0]," ++
    "[\"fnRate\",null],[\"reversalRate\",0],[\"cycleP50Ms\",60000],[\"cycleP95Ms\",90000],[\"slopRate\",0]," ++
    "[\"copycatRate\",0]]"

/-- The signature of `sampleBody` under each of two keys. -/
def sampleSignature (key : String) : String :=
  if key = "peer-key" then "61ad5993aef463d919e218d2e922204dbec1e3f0ee54ed6d9e36083a6aa9f502"
  else "2c8dcc17af902530b9f8c8eefa1297bc722b2e2cfbf4ad308a2456ff282bd26f"

/-- A host that knows one body, two keys and one date. -/
def sampleHost : FederationHost where
  hmacSha256 key _ := sampleSignature key
  sha256 key :=
    if key = "peer-key" then "8f6c176f6b8d4302d86b0f208ea26effad4c9d40216ecdd0e4d19e737ffa3714"
    else "580843d03d2216ff1a275d0991bad66e4d1af871171d929e9de604b7959f9bca"
  stringify _ := sampleBody
  dateParse text := if text = "2026-01-01T00:00:00.000Z" then some 1767225600000 else none

def sampleBundle (key : String) : FederatedSignalBundle :=
  .object [("schemaVersion", .number 1), ("instanceId", .string "peer-a"),
    ("generatedAt", .string "2026-01-01T00:00:00.000Z"), ("windowDays", .number 90),
      ("decided", .number 12),
    ("mergePrecision", .number 1), ("closePrecision", .null), ("fpRate", .number 0),
      ("fnRate", .null),
    ("reversalRate", .number 0), ("cycleP50Ms", .number 60000), ("cycleP95Ms", .number 90000),
      ("slopRate", .number 0),
    ("copycatRate", .number 0), ("signature", .string (sampleSignature key))]

/-- The two signatures differ in their first byte. -/
theorem hexToBytes_sampleSignature (key : String) : ∃ rest,
    hexToBytes (sampleSignature key) = some ((if key = "peer-key" then 97 else 44) :: rest) := by
  have hfirst : ((hexToBytes
      "61ad5993aef463d919e218d2e922204dbec1e3f0ee54ed6d9e36083a6aa9f502").bind
      List.head?) = some 97 := by decide +kernel
  have hsecond : ((hexToBytes
      "2c8dcc17af902530b9f8c8eefa1297bc722b2e2cfbf4ad308a2456ff282bd26f").bind
      List.head?) = some 44 := by decide +kernel
  rw [sampleSignature]
  split_ifs with hkey
  · obtain ⟨bytes, hbytes, hhead⟩ := Option.bind_eq_some_iff.1 hfirst
    obtain ⟨rest, rfl⟩ := List.head?_eq_some_iff.1 hhead
    exact ⟨rest, hbytes⟩
  · obtain ⟨bytes, hbytes, hhead⟩ := Option.bind_eq_some_iff.1 hsecond
    obtain ⟨rest, rfl⟩ := List.head?_eq_some_iff.1 hhead
    exact ⟨rest, hbytes⟩

theorem verifiesUnder_sampleBundle (key other : String) :
    verifiesUnder sampleHost (sampleBundle key) other =
    ((key == "peer-key") == (other == "peer-key")) := by
  change timingSafeEqualHex (sampleSignature key) (sampleSignature other) = _
  obtain ⟨rest, hkey⟩ := hexToBytes_sampleSignature key
  obtain ⟨rest', hother⟩ := hexToBytes_sampleSignature other
  rw [timingSafeEqualHex, hkey, hother]
  by_cases hsame : (key == "peer-key") = (other == "peer-key")
  · have hsignature : sampleSignature key = sampleSignature other := by
      simp only [sampleSignature, ← beq_iff_eq (b := "peer-key"), hsame]
    rw [hsignature, hother, Option.some.injEq] at hkey
    rw [← hkey, hsame, beq_self_eq_true]
    exact beq_self_eq_true _
  · rw [beq_eq_false_iff_ne.2 hsame]
    refine beq_eq_false_iff_ne.2 fun hbytes => hsame ?_
    have hhead := head_eq_of_cons_eq hbytes
    by_cases hfirst : key = "peer-key" <;> by_cases hsecond : other = "peer-key" <;> simp_all

end LoopOver.Federation
