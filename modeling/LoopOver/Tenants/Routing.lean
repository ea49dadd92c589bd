import LoopOver.Contract.Digest
import LoopOver.Foundations.Runs
import LoopOver.Tenants.Registry

/-!
# Where the webhooks of an installation go

The index of the registry leads from an installation to the one tenant that claims it, and the
requests about other tenants leave that alone, except that two pairs of a name and a product can
have one key: `"acme:eu"` for `orb` and `"eu"` for `orb:acme` are both `tenant:orb:acme:eu`. A
delete request then finds the record of another tenant, and a relink request, which compares the
names only, takes an installation from one.

* `recordAt_upsert` and `indexAt_upsert` say all that `upsert` does.
* `Kept` is the invariant, `Routed` what follows for the installations, and `Undisturbed` what a
  request keeps of the tenants that it is not about.
* `Astray` are the requests that go wrong: `routed_and_undisturbed_iff` says so of all runs, and
  `delete_misroutes` is a run with one.
-/

namespace LoopOver.Tenants

open Queue (JsonValue Payload)
open Option

/-! ## Keys -/

theorem keyFor_ne_installationIndexKeyFor (name product : String) (installationId : ℕ) :
    keyFor name product ≠ installationIndexKeyFor installationId := by
  intro h
  have hchars := congrArg String.toList h
  simp [keyFor, installationIndexKeyFor] at hchars

theorem installationIndexKeyFor_inj {first second : ℕ}
    (h : installationIndexKeyFor first = installationIndexKeyFor second) : first = second :=
  natText_inj ((String.append_right_inj "installation:").1 h)

/-! ## Writing a record -/

section Upsert

variable (kv : Kv)

/-- The key that the index has for an installation. -/
def indexAt (installationId : ℕ) : Option String :=
  match kv (installationIndexKeyFor installationId) with
  | some (.primaryKey key) => some key
  | _ => none

variable {kv} {record : TenantRegistryRecord} {key : String} {installationId : ℕ}

theorem getByOrbInstallationId_eq :
    getByOrbInstallationId kv installationId = (indexAt kv installationId).bind (recordAt kv) := by
  unfold getByOrbInstallationId indexAt
  rcases kv (installationIndexKeyFor installationId) with _ | (_ | _) <;> rfl

theorem pointsTo_iff :
    pointsTo kv installationId key = true ↔ indexAt kv installationId = some key := by
  unfold pointsTo indexAt
  rcases kv (installationIndexKeyFor installationId) with _ | (_ | _) <;> simp

/-- A record is only stored under its own key. -/
def Keyed (kv : Kv) : Prop := ∀ key record, recordAt kv key = some record → key = record.key

theorem recordAt_installationIndexKeyFor (hkeyed : Keyed kv) :
    recordAt kv (installationIndexKeyFor installationId) = none := by
  rw [eq_none_iff_forall_ne_some]
  intro record hrecord
  exact keyFor_ne_installationIndexKeyFor _ _ _ (hkeyed _ _ hrecord).symm

theorem recordAt_update_index {value : Option KvValue} (hkeyed : Keyed kv)
    (hvalue : ∀ record, value ≠ some (.record record)) :
    recordAt (Function.update kv (installationIndexKeyFor installationId) value) = recordAt kv := by
  funext key
  by_cases hkey : key = installationIndexKeyFor installationId
  · subst hkey
    rw [recordAt_installationIndexKeyFor hkeyed, recordAt, Function.update_self]
    split
    · exact absurd rfl (hvalue _)
    · rfl
  · rw [recordAt, recordAt, Function.update_of_ne hkey]

theorem recordAt_update_record :
    recordAt (Function.update kv record.key (some (.record record))) key =
      if key = record.key then some record else recordAt kv key := by
  unfold recordAt
  split_ifs with hkey
  · rw [hkey, Function.update_self]
  · rw [Function.update_of_ne hkey]

theorem indexAt_update_index {other : ℕ} {value : Option KvValue} :
    indexAt (Function.update kv (installationIndexKeyFor other) value) installationId =
      if installationId = other then
        match value with
        | some (.primaryKey key) => some key
        | _ => none
      else indexAt kv installationId := by
  unfold indexAt
  split_ifs with hid
  · rw [hid, Function.update_self]
  · rw [Function.update_of_ne fun h => hid (installationIndexKeyFor_inj h)]

theorem indexAt_update_record :
    indexAt (Function.update kv record.key (some (.record record))) installationId =
      indexAt kv installationId := by
  have hkey : installationIndexKeyFor installationId ≠ record.key :=
    (keyFor_ne_installationIndexKeyFor _ _ _).symm
  rw [indexAt, indexAt, Function.update_of_ne hkey]

theorem recordAt_clearClaim (hkeyed : Keyed kv) :
    recordAt (clearClaim kv record) = recordAt kv := by
  unfold clearClaim
  split
  · split_ifs
    · exact recordAt_update_index hkeyed fun _ => (some_ne_none _).symm
    · rfl
  · rfl

theorem indexAt_clearClaim :
    indexAt (clearClaim kv record) installationId =
      if (recordAt kv record.key).bind (·.orbInstallationId) = some installationId ∧
          record.orbInstallationId ≠ some installationId ∧
            indexAt kv installationId = some record.key then none
      else indexAt kv installationId := by
  unfold clearClaim
  cases hprevious : (recordAt kv record.key).bind (·.orbInstallationId) with
  | none => simp
  | some previous =>
    simp only [pointsTo_iff, Option.some.injEq]
    by_cases hid : previous = installationId
    · subst hid
      split_ifs with hclear hother hother
      · rw [indexAt_update_index, if_pos rfl]
      · exact absurd ⟨rfl, hclear⟩ hother
      · exact absurd hother.2 hclear
      · rfl
    · have hother : ¬(previous = installationId ∧ record.orbInstallationId ≠ some installationId ∧
          indexAt kv installationId = some record.key) := fun h => hid h.1
      rw [if_neg hother]
      split_ifs
      · rw [indexAt_update_index, if_neg (Ne.symm hid)]
      · rfl

/-- **The records after a write.** -/
theorem recordAt_upsert (hkeyed : Keyed kv) :
    recordAt (upsert kv record) key = if key = record.key then some record
      else recordAt kv key := by
  have hstored : Keyed
      (Function.update (clearClaim kv record) record.key (some (.record record))) := by
    intro other found hfound
    rw [recordAt_update_record, recordAt_clearClaim hkeyed] at hfound
    split_ifs at hfound with hother
    · rw [hother, Option.some.inj hfound]
    · exact hkeyed _ _ hfound
  unfold upsert
  split
  · rw [recordAt_update_index hstored fun _ h => KvValue.noConfusion (Option.some.inj h),
      recordAt_update_record, recordAt_clearClaim hkeyed]
  · rw [recordAt_update_record, recordAt_clearClaim hkeyed]

/-- **The index after a write**: the claim of the record is there, and the one that it had before is
not. -/
theorem indexAt_upsert :
    indexAt (upsert kv record) installationId =
      if record.orbInstallationId = some installationId then some record.key
      else if (recordAt kv record.key).bind (·.orbInstallationId) = some installationId ∧
          indexAt kv installationId = some record.key then none
      else indexAt kv installationId := by
  unfold upsert
  cases hclaim : record.orbInstallationId with
  | none =>
    simp only [indexAt_update_record, indexAt_clearClaim, hclaim]
    simp
  | some claimed =>
    simp only [indexAt_update_index, indexAt_update_record, indexAt_clearClaim, hclaim,
      Option.some.injEq]
    by_cases hid : installationId = claimed
    · rw [if_pos hid, if_pos hid.symm]
    · simp [hid, Ne.symm hid]

theorem Keyed.upsert (hkeyed : Keyed kv) : Keyed (upsert kv record) := by
  intro key found hfound
  rw [recordAt_upsert hkeyed] at hfound
  split_ifs at hfound with hkey
  · rw [hkey, Option.some.inj hfound]
  · exact hkeyed key found hfound

end Upsert

/-! ## Claims -/

section Claims

variable (kv : Kv)

/-- The record under the key has the installation, and no new tenant may take it. -/
structure Claims (key : String) (record : TenantRegistryRecord) (installationId : ℕ) : Prop where
  stored : recordAt kv key = some record
  held : isRecreatableState record.state = false
  claimed : record.orbInstallationId = some installationId

/-- At most one tenant claims an installation, and the registry finds it. -/
structure Routed : Prop where
  unique : ∀ first second record other installationId,
    Claims kv first record installationId → Claims kv second other installationId → first = second
  found : ∀ key record installationId, Claims kv key record installationId →
    getByOrbInstallationId kv installationId = some record

/-- What holds of the registry in every run without a request that goes wrong. -/
structure Kept : Prop where
  keyed : Keyed kv
  indexed : ∀ key record installationId, Claims kv key record installationId →
    indexAt kv installationId = some key
  pointed : ∀ installationId key, indexAt kv installationId = some key →
    ∃ record, recordAt kv key = some record ∧ record.orbInstallationId = some installationId

variable {kv} {record other : TenantRegistryRecord} {key : String} {installationId : ℕ}

theorem Kept.found (hkept : Kept kv) (hclaims : Claims kv key record installationId) :
    getByOrbInstallationId kv installationId = some record := by
  rw [getByOrbInstallationId_eq, hkept.indexed _ _ _ hclaims]
  exact hclaims.stored

theorem Kept.routed (hkept : Kept kv) : Routed kv where
  unique _ _ _ _ _ hfirst hsecond :=
    Option.some.inj ((hkept.indexed _ _ _ hfirst).symm.trans (hkept.indexed _ _ _ hsecond))
  found _ _ _ := hkept.found

theorem Kept.claimant (hkept : Kept kv) (hclaims : Claims kv key record installationId) :
    claimant kv (some installationId) = some record := by
  rw [Tenants.claimant, bind_some, hkept.found hclaims, filter_some]
  simp [hclaims.held]

theorem kept_emptyKv : Kept emptyKv where
  keyed _ _ h := absurd h.symm (some_ne_none _)
  indexed _ _ _ hclaims := absurd hclaims.stored.symm (some_ne_none _)
  pointed _ _ h := absurd h.symm (some_ne_none _)

/-- Another record stays as it is. -/
theorem claims_upsert (hkeyed : Keyed kv) (hkey : key ≠ record.key) :
    Claims (upsert kv record) key other installationId ↔ Claims kv key other installationId := by
  have hstored : recordAt (upsert kv record) key = recordAt kv key := by
    rw [recordAt_upsert hkeyed, if_neg hkey]
  constructor
  · rintro ⟨hother, hheld, hclaimed⟩
    exact ⟨hstored.symm.trans hother, hheld, hclaimed⟩
  · rintro ⟨hother, hheld, hclaimed⟩
    exact ⟨hstored.trans hother, hheld, hclaimed⟩

variable (kv record) in
/-- The claim of the record is no other tenant's. -/
def Unclaimed : Prop := ∀ key other installationId, record.orbInstallationId = some installationId →
  Claims kv key other installationId → key = record.key

/-- A write of a record whose claim no other tenant has. -/
theorem Kept.upsert (hkept : Kept kv) (hfree : Unclaimed kv record) : Kept (upsert kv record) where
  keyed := hkept.keyed.upsert
  indexed key other installationId hclaims := by
    rw [indexAt_upsert]
    by_cases hkey : key = record.key
    · have hother : other = record := by
        have hstored := hclaims.stored
        rw [recordAt_upsert hkept.keyed, if_pos hkey] at hstored
        exact (Option.some.inj hstored).symm
      rw [← hother, if_pos hclaims.claimed, hkey, hother]
    · have hbefore := (claims_upsert hkept.keyed hkey).1 hclaims
      have hindex := hkept.indexed _ _ _ hbefore
      split_ifs with hclaim hcleared
      · exact absurd (hfree _ _ _ hclaim hbefore) hkey
      · exact absurd (Option.some.inj (hindex.symm.trans hcleared.2)) hkey
      · exact hindex
  pointed installationId key hindex := by
    rw [indexAt_upsert] at hindex
    rw [recordAt_upsert hkept.keyed]
    split_ifs at hindex with hclaim hcleared
    · exact ⟨record, if_pos (Option.some.inj hindex).symm, hclaim⟩
    · obtain ⟨found, hfound, hclaimed⟩ := hkept.pointed _ _ hindex
      -- the record is not the one before the write, whose claim was taken out
      have hkey : key ≠ record.key := by
        rintro rfl
        exact hcleared ⟨by rw [hfound, bind_some, hclaimed], hindex⟩
      exact ⟨found, by rw [if_neg hkey, hfound], hclaimed⟩

end Claims

/-! ## Requests -/

/-- The name and the product of the tenant that the request is about. -/
def TenantRequest.subject : TenantRequest → Option (String × String)
  | .create body _ startedAt _ => (parseCreate body startedAt).toOption.map fun parsed =>
    (parsed.1, parsed.2.1)
  | .relink name productQuery _ _ => (parseProduct productQuery).map fun product => (name, product)
  | .delete name productQuery _ _ => (parseProduct productQuery).map fun product => (name, product)

def TenantRegistryRecord.subject (record : TenantRegistryRecord) : String × String :=
  (record.tenant.name, record.product)

/-- The installations of the active tenants that the request is not about lead to them as before. -/
def Undisturbed (kv : Kv) (request : TenantRequest) (kv' : Kv) : Prop :=
  ∀ key record installationId, Claims kv key record installationId → record.state = .active →
    request.subject ≠ some record.subject →
      (getByOrbInstallationId kv' installationId).map (·.subject) = some record.subject

section Targets

variable (kv : Kv)

/-- The record that a relink request finds, and the installation that it is to have. -/
def relinkTarget (name : String) (productQuery : Option String) (body : Payload) :
    Option (TenantRegistryRecord × ℕ) :=
  if parseProduct productQuery = some "orb" then do
    let existing ← get kv name "orb"
    let value ← (objectBody body).bind (·.property? "orbInstallationId")
    let installationId ← installationIdOf value
    pure (existing, installationId)
  else none

/-- The record that a delete request finds and tears down. -/
def deleteTarget (name : String) (productQuery : Option String) (driver : DriverReplies) :
    Option TenantRegistryRecord := do
  let product ← parseProduct productQuery
  let existing ← (get kv name product).filter fun existing =>
    decide (existing.state ≠ .provisioning)
  (deprovisionTenant driver).toOption.map fun _ => existing

/-- The record after a relink. -/
def relinked (existing : TenantRegistryRecord) (installationId : ℕ) (now : String) :
    TenantRegistryRecord :=
  { existing with orbInstallationId := some installationId, updatedAt := now }

/-- The record after a delete. -/
def tornDown (existing : TenantRegistryRecord) (now : String) : TenantRegistryRecord :=
  ⟨existing.tenant, existing.product, .tornDown, existing.createdAt, now, none, none, none⟩

/-- A relink is refused for a claim of a tenant with another name. -/
def relinkRefused (existing : TenantRegistryRecord) (installationId : ℕ) : Bool :=
  (claimant kv (some installationId)).any fun other => other.tenant.name != existing.tenant.name

theorem relinkTenant_snd (name : String) (productQuery : Option String) (body : Payload)
    (now : String) :
    (relinkTenant kv name productQuery body now).2 =
      match relinkTarget kv name productQuery body with
      | none => kv
      | some (existing, installationId) =>
        if relinkRefused kv existing installationId = true then kv
        else upsert kv (relinked existing installationId now) := by
  unfold relinkTenant relinkTarget
  cases hproduct : parseProduct productQuery with
  | none => rfl
  | some product =>
    by_cases horb : product = "orb"
    · subst horb
      simp only [ne_eq, not_true_eq_false, if_false, if_true]
      cases get kv name "orb" with
      | none => rfl
      | some existing =>
        cases objectBody body with
        | none => rfl
        | some body =>
          simp only [bind_eq_bind, bind_some]
          cases body.property? "orbInstallationId" with
          | none => rfl
          | some value =>
            simp only [bind_some]
            cases installationIdOf value with
            | none => rfl
            | some installationId =>
              simp only [bind_some, pure_def, relinkRefused, ← isSome_filter]
              cases (claimant kv (some installationId)).filter fun other =>
                other.tenant.name != existing.tenant.name with
              | none => rfl
              | some other => rfl
    · simp [horb]

theorem deleteTenant_snd (name : String) (productQuery : Option String) (driver : DriverReplies)
    (now : String) :
    (deleteTenant kv name productQuery driver now).2 =
      match deleteTarget kv name productQuery driver with
      | none => kv
      | some existing => upsert kv (tornDown existing now) := by
  unfold deleteTenant deleteTarget
  cases parseProduct productQuery with
  | none => rfl
  | some product =>
    simp only [bind_eq_bind, bind_some]
    cases get kv name product with
    | none => rfl
    | some existing =>
      by_cases hstate : existing.state = .provisioning
      · simp [hstate, filter_some]
      · simp only [hstate, if_false, filter_some, ne_eq, not_false_eq_true, decide_true, if_true,
          bind_some]
        cases deprovisionTenant driver <;> rfl

/-- A create request does nothing, or it writes two records under a key that was free, with an
installation that was. -/
theorem createTenant_snd (body : Payload) (driver : DriverReplies) (startedAt settledAt : String) :
    (createTenant kv body driver startedAt settledAt).2 = kv ∨
      ∃ pending record,
        (∀ existing, recordAt kv pending.key = some existing →
          isRecreatableState existing.state = true) ∧
        claimant kv pending.orbInstallationId = none ∧ record.key = pending.key ∧
        record.orbInstallationId = pending.orbInstallationId ∧
        (createTenant kv body driver startedAt settledAt).2 =
          upsert (upsert kv pending) record := by
  unfold createTenant
  split
  · exact .inl rfl
  · rename_i name product schedule installationId _
    split_ifs with hexists
    · exact .inl rfl
    · split
      · exact .inl rfl
      · rename_i hclaimant
        right
        have hfresh : ∀ existing, recordAt kv (keyFor name product) = some existing →
            isRecreatableState existing.state = true := by
          intro existing hexisting
          rw [get, hexisting] at hexists
          simpa using hexists
        let pending : TenantRegistryRecord :=
          ⟨⟨name⟩, product, .provisioning, startedAt, startedAt, schedule, installationId, none⟩
        cases provisionTenant driver with
        | error _ =>
          exact ⟨pending, { pending with state := .failed, updatedAt := settledAt }, hfresh,
            hclaimant, rfl, rfl, rfl⟩
        | ok secretRef =>
          exact ⟨pending, { pending with
            state := .active, updatedAt := settledAt, secretRef := secretRef }, hfresh,
            hclaimant, rfl, rfl, rfl⟩

end Targets

/-! ## Steps -/

/-- The request finds the active record of a tenant that it is not about, or it takes an
installation from a tenant whose record is another one. -/
def Astray (kv : Kv) (request : TenantRequest) : Prop :=
  match request with
  | .create .. => False
  | .relink name productQuery body _ =>
    ∃ existing installationId, relinkTarget kv name productQuery body =
      some (existing, installationId) ∧
      relinkRefused kv existing installationId = false ∧
      ((request.subject ≠ some existing.subject ∧ existing.state = .active ∧
          ∃ previous, existing.orbInstallationId = some previous ∧ previous ≠ installationId) ∨
        ∃ other, claimant kv (some installationId) = some other ∧ other.key ≠ existing.key)
  | .delete name productQuery driver _ =>
    ∃ existing, deleteTarget kv name productQuery driver = some existing ∧
      request.subject ≠ some existing.subject ∧ existing.state = .active ∧
        existing.orbInstallationId.isSome = true

section Steps

variable {kv kv' : Kv} {request : TenantRequest} {record existing : TenantRegistryRecord}
  {key : String}
  {installationId : ℕ}

theorem claims_of_active (hstored : recordAt kv key = some record)
    (hactive : record.state = .active) (hclaimed : record.orbInstallationId = some installationId) :
    Claims kv key record installationId :=
  ⟨hstored, by rw [hactive]; rfl, hclaimed⟩

variable {productQuery : Option String} {name : String}

theorem recordAt_of_relinkTarget {body : Payload} (hkept : Kept kv)
    (h : relinkTarget kv name productQuery body = some (existing, installationId)) :
    recordAt kv existing.key = some existing := by
  unfold relinkTarget at h
  split_ifs at h
  simp only [bind_eq_bind, bind_eq_some_iff, pure_def, Option.some.injEq, Prod.mk.injEq] at h
  obtain ⟨found, hfound, _, _, _, _, rfl, rfl⟩ := h
  have hkey := hkept.keyed _ _ hfound
  rw [← hkey]
  exact hfound

theorem recordAt_of_deleteTarget {driver : DriverReplies}
    (hkept : Kept kv) (h : deleteTarget kv name productQuery driver = some existing) :
    recordAt kv existing.key = some existing := by
  unfold deleteTarget at h
  simp only [bind_eq_bind, bind_eq_some_iff, filter_eq_some_iff, map_eq_some_iff] at h
  obtain ⟨product, _, found, ⟨hfound, _⟩, _, _, rfl⟩ := h
  have hkey := hkept.keyed _ _ hfound
  rw [← hkey]
  exact hfound

/-- A tenant whose record a write leaves alone is found as before. -/
theorem Undisturbed.upsert (hkept : Kept kv) (hkept' : Kept (upsert kv record))
    (hown : ∀ other installationId, Claims kv record.key other installationId →
      other.state = .active →
      request.subject ≠ some other.subject →
        Claims (upsert kv record) record.key record installationId ∧
          record.subject = other.subject) :
    Undisturbed kv request (upsert kv record) := by
  intro key other installationId hclaims hactive hsubject
  by_cases hkey : key = record.key
  · subst hkey
    obtain ⟨hafter, hsame⟩ := hown other installationId hclaims hactive hsubject
    rw [hkept'.found hafter, map_some, hsame]
  · have hafter := (claims_upsert hkept.keyed hkey).2 hclaims
    rw [hkept'.found hafter, map_some]

theorem Kept.undisturbed (hkept : Kept kv) : Undisturbed kv request kv := by
  intro key record installationId hclaims _ _
  rw [hkept.found hclaims, map_some]

theorem unclaimed_of_claimant (hkept : Kept kv)
    (hclaimant : claimant kv record.orbInstallationId = none) :
    Unclaimed kv record := by
  intro key other installationId hclaim hclaims
  rw [hclaim, hkept.claimant hclaims] at hclaimant
  exact absurd hclaimant (some_ne_none other)

theorem Unclaimed.upsert {other : TenantRegistryRecord} (hkept : Kept kv)
    (hfree : Unclaimed kv record) (hkey : other.key = record.key)
    (hclaim : other.orbInstallationId = record.orbInstallationId) :
    Unclaimed (upsert kv record) other := by
  intro key found installationId hclaimed hclaims
  rw [hkey]
  by_contra hne
  exact hne
    (hfree key found installationId (hclaim ▸ hclaimed) ((claims_upsert hkept.keyed hne).1 hclaims))

/-- A create request never goes wrong. -/
theorem kept_createTenant (hkept : Kept kv) (body : Payload) (driver : DriverReplies)
    (startedAt settledAt : String) :
    Kept (createTenant kv body driver startedAt settledAt).2 ∧
      Undisturbed kv request (createTenant kv body driver startedAt settledAt).2 := by
  rcases createTenant_snd kv body driver startedAt settledAt with
    hsame | ⟨pending, record, hfresh, hclaimant, hkey, hclaim, hafter⟩
  · rw [hsame]
    exact ⟨hkept, hkept.undisturbed⟩
  · rw [hafter]
    have hfree := unclaimed_of_claimant hkept hclaimant
    have hpending := hkept.upsert hfree
    have hsettled := hpending.upsert (hfree.upsert hkept hkey hclaim)
    refine ⟨hsettled, fun key other installationId hclaims hactive _ => ?_⟩
    have hne : key ≠ pending.key := by
      rintro rfl
      have hrecreatable := hfresh other hclaims.stored
      rw [hclaims.held] at hrecreatable
      exact Bool.noConfusion hrecreatable
    have hmiddle := (claims_upsert hkept.keyed hne).2 hclaims
    have hlast := (claims_upsert hpending.keyed (hkey ▸ hne)).2 hmiddle
    rw [hsettled.found hlast, map_some]

theorem kept_relinkTenant {body : Payload} {now : String}
    (hkept : Kept kv) (hright : ¬Astray kv (.relink name productQuery body now)) :
    Kept (relinkTenant kv name productQuery body now).2 ∧
      Undisturbed kv (.relink name productQuery body now)
        (relinkTenant kv name productQuery body now).2 := by
  rw [relinkTenant_snd]
  rcases htarget : relinkTarget kv name productQuery body with _ | ⟨existing, installationId⟩
  · exact ⟨hkept, hkept.undisturbed⟩
  · simp only
    split_ifs with hrefused
    · exact ⟨hkept, hkept.undisturbed⟩
    · rw [Bool.not_eq_true] at hrefused
      have hstored := recordAt_of_relinkTarget hkept htarget
      have hfree : Unclaimed kv (relinked existing installationId now) := by
        intro key other claimed hclaim hclaims
        obtain rfl := Option.some.inj hclaim
        rw [hkept.keyed _ _ hclaims.stored]
        by_contra hne
        exact hright ⟨existing, installationId, htarget, hrefused,
          .inr ⟨other, hkept.claimant hclaims, hne⟩⟩
      have hkept' := hkept.upsert hfree
      refine ⟨hkept', .upsert hkept hkept' fun other claimed hclaims hactive hsubject => ?_⟩
      obtain rfl : existing = other := Option.some.inj (hstored.symm.trans hclaims.stored)
      have hsame : claimed = installationId := by
        by_contra hne
        exact hright ⟨existing, installationId, htarget, hrefused,
          .inl ⟨hsubject, hactive, claimed, hclaims.claimed, hne⟩⟩
      subst hsame
      refine ⟨claims_of_active ?_ hactive rfl, rfl⟩
      rw [recordAt_upsert hkept.keyed, if_pos rfl]

theorem kept_deleteTenant {driver : DriverReplies} {now : String}
    (hkept : Kept kv) (hright : ¬Astray kv (.delete name productQuery driver now)) :
    Kept (deleteTenant kv name productQuery driver now).2 ∧
      Undisturbed kv (.delete name productQuery driver now)
        (deleteTenant kv name productQuery driver now).2 := by
  rw [deleteTenant_snd]
  cases htarget : deleteTarget kv name productQuery driver with
  | none => exact ⟨hkept, hkept.undisturbed⟩
  | some existing =>
    have hstored := recordAt_of_deleteTarget hkept htarget
    have hfree : Unclaimed kv (tornDown existing now) := fun _ _ _ hclaim _ =>
      absurd hclaim.symm (some_ne_none _)
    have hkept' := hkept.upsert hfree
    refine ⟨hkept', .upsert hkept hkept' fun other claimed hclaims hactive hsubject => ?_⟩
    obtain rfl : existing = other := Option.some.inj (hstored.symm.trans hclaims.stored)
    exact absurd ⟨existing, htarget, hsubject, hactive, by rw [hclaims.claimed]; rfl⟩ hright

/-- **A request that does not go wrong keeps the invariant**, and the tenants that it is not
about. -/
theorem kept_handle (hkept : Kept kv) (hright : ¬Astray kv request) :
    Kept (handle kv request).2 ∧ Undisturbed kv request (handle kv request).2 := by
  cases request with
  | create body driver startedAt settledAt =>
    exact kept_createTenant hkept body driver startedAt settledAt
  | relink name productQuery body now => exact kept_relinkTenant hkept hright
  | delete name productQuery driver now => exact kept_deleteTenant hkept hright

/-- The claim that a record had is nowhere after a write of the record without it. -/
theorem getByOrbInstallationId_dropped (record : TenantRegistryRecord)
    (hstored : recordAt kv record.key = some existing)
    (hclaims : Claims kv record.key existing installationId) (hkept : Kept kv)
    (hdropped : record.orbInstallationId ≠ some installationId) :
    getByOrbInstallationId (upsert kv record) installationId = none := by
  have hprevious : (recordAt kv record.key).bind (·.orbInstallationId) = some installationId := by
    rw [hstored, bind_some, hclaims.claimed]
  rw [getByOrbInstallationId_eq, indexAt_upsert, if_neg hdropped,
    if_pos ⟨hprevious, hkept.indexed _ _ _ hclaims⟩, bind_none]

/-- The record that was written last has its installation. -/
theorem getByOrbInstallationId_upsert (hkeyed : Keyed kv)
    (hclaim : record.orbInstallationId = some installationId) :
    getByOrbInstallationId (upsert kv record) installationId = some record := by
  rw [getByOrbInstallationId_eq, indexAt_upsert, if_pos hclaim, bind_some, recordAt_upsert hkeyed,
    if_pos rfl]

/-- The tenant that has an installation claims it. -/
theorem claims_of_claimant (hkept : Kept kv)
    (hclaimant : claimant kv (some installationId) = some record) :
    Claims kv record.key record installationId := by
  rw [claimant, bind_some, filter_eq_some_iff, getByOrbInstallationId_eq,
    bind_eq_some_iff] at hclaimant
  obtain ⟨⟨key, hindex, hrecord⟩, hheld⟩ := hclaimant
  obtain ⟨found, hfound, hclaimed⟩ := hkept.pointed _ _ hindex
  obtain rfl : record = found := Option.some.inj (hrecord.symm.trans hfound)
  rw [← hkept.keyed _ _ hrecord]
  exact ⟨hrecord, by simpa using hheld, hclaimed⟩

/-- **A request that goes wrong** leaves an installation with two tenants or with none. -/
theorem Astray.misroutes (hkept : Kept kv) (hwrong : Astray kv request) :
    ¬(Routed (handle kv request).2 ∧ Undisturbed kv request (handle kv request).2) := by
  rintro ⟨hrouted, hundisturbed⟩
  cases request with
  | create body driver startedAt settledAt => exact hwrong
  | relink name productQuery body now =>
    obtain ⟨existing, installationId, htarget, hrefused, hcase⟩ := hwrong
    have hstored := recordAt_of_relinkTarget hkept htarget
    have hafter : (handle kv (.relink name productQuery body now)).2 =
        upsert kv (relinked existing installationId now) := by
      rw [handle, relinkTenant_snd, htarget]
      simp only [hrefused, Bool.false_eq_true, if_false]
    rw [hafter] at hrouted hundisturbed
    rcases hcase with ⟨hsubject, hactive, previous, hprevious, hne⟩ | ⟨other, hclaimant, hne⟩
    · have hclaims := claims_of_active hstored hactive hprevious
      have hfound := hundisturbed _ _ _ hclaims hactive hsubject
      have hdropped : (relinked existing installationId now).orbInstallationId ≠
          some previous := fun h =>
        hne (Option.some.inj h).symm
      rw [getByOrbInstallationId_dropped (relinked existing installationId now) hstored hclaims
        hkept hdropped]
        at hfound
      exact absurd hfound.symm (some_ne_none _)
    · have hkey : other.key ≠ (relinked existing installationId now).key := hne
      have hother := (claims_upsert hkept.keyed hkey).2 (claims_of_claimant hkept hclaimant)
      have hfound := hrouted.found _ _ _ hother
      rw [getByOrbInstallationId_upsert hkept.keyed rfl] at hfound
      exact hkey (congrArg TenantRegistryRecord.key (Option.some.inj hfound)).symm
  | delete name productQuery driver now =>
    obtain ⟨existing, htarget, hsubject, hactive, hclaimed⟩ := hwrong
    have hstored := recordAt_of_deleteTarget hkept htarget
    obtain ⟨installationId, hclaim⟩ := isSome_iff_exists.1 hclaimed
    have hclaims := claims_of_active hstored hactive hclaim
    have hfound := hundisturbed _ _ _ hclaims hactive hsubject
    have hdropped : (tornDown existing now).orbInstallationId ≠ some installationId :=
      (some_ne_none _).symm
    rw [handle, deleteTenant_snd, htarget] at hfound
    simp only [getByOrbInstallationId_dropped (tornDown existing now) hstored hclaims hkept
      hdropped] at hfound
    exact absurd hfound.symm (some_ne_none _)

end Steps

/-! ## Runs -/

/-- The registry after a request. -/
def serves (kv : Kv) (request : TenantRequest) : Option Kv := some (handle kv request).2

/-- **The routing of the webhooks**: a run keeps it at every request, from the empty registry on, if
and only if none of its requests goes wrong. -/
theorem routed_and_undisturbed_iff (requests : List TenantRequest) :
    Runs.AllSteps serves
        (fun kv request => Routed (handle kv request).2 ∧
          Undisturbed kv request (handle kv request).2)
        emptyKv requests ↔
      Runs.AllSteps serves (fun kv request => ¬Astray kv request) emptyKv requests := by
  symm
  refine Runs.allSteps_congr Kept ?_ ?_ kept_emptyKv
  · intro kv request hkept
    constructor
    · intro hright
      obtain ⟨hkept', hundisturbed⟩ := kept_handle hkept hright
      exact ⟨hkept'.routed, hundisturbed⟩
    · intro hgood hwrong
      exact hwrong.misroutes hkept hgood
  · intro kv request kv' hkept hright hstep
    obtain rfl := Option.some.inj hstep
    exact (kept_handle hkept hright).1

/-! ## A request that goes wrong -/

def doneDriver : DriverReplies := ⟨.ok (), .ok none, .ok (), .ok (), .ok (), .ok ()⟩

/-- The tenant `acme:eu` of `orb`, with the installation 7. -/
def createAcmeEu : TenantRequest :=
  .create (some (.object [("name", .string "acme:eu"), ("product", .string "orb"),
    ("orbInstallationId", .number 7)]))
    doneDriver "2026-01-01T00:00:00.000Z" "2026-01-01T00:01:00.000Z"

/-- The tenant `eu` of `orb:acme`, which there is not. -/
def deleteEu : TenantRequest := .delete "eu" (some "orb:acme") doneDriver "2026-01-02T00:00:00.000Z"

def acmeEu : TenantRegistryRecord :=
  ⟨⟨"acme:eu"⟩, "orb", .active, "2026-01-01T00:00:00.000Z", "2026-01-01T00:01:00.000Z", none,
    some 7, none⟩

/-- The delete request of a tenant that there is not takes another tenant off its webhooks. -/
theorem delete_misroutes :
    ¬∀ requests, Runs.AllSteps serves
      (fun kv request => Routed (handle kv request).2 ∧
        Undisturbed kv request (handle kv request).2)
      emptyKv requests := by
  intro h
  obtain ⟨_, hrest⟩ := h [createAcmeEu, deleteEu]
  obtain ⟨⟨_, hundisturbed⟩, _⟩ := hrest _ rfl
  have hclaims : Claims (handle emptyKv createAcmeEu).2 "tenant:orb:acme:eu" acmeEu 7 :=
    ⟨by decide +kernel, rfl, rfl⟩
  have hkept := hundisturbed _ _ _ hclaims rfl (by decide +kernel)
  have hlost :
      (getByOrbInstallationId (handle (handle emptyKv createAcmeEu).2 deleteEu).2 7).map
        (·.subject) = none := by
    decide +kernel
  rw [hlost] at hkept
  exact absurd hkept.symm (some_ne_none _)

end LoopOver.Tenants
