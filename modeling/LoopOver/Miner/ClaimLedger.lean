import LoopOver.Foundations.Runs
import LoopOver.Foundations.Table
import LoopOver.Miner.Names
import Mathlib.Logic.Function.Basic

/-!
# The claim ledger

`packages/loopover-miner/lib/claim-ledger.ts` records which issues the miner works on, one row for
each forge host, repository and issue. `claimIssueWithinCap` sweeps the ledger, counts the active
claims of the repository and records the new one, in one transaction; the other operations are
single statements, and a sweep outside of the transaction (`claim-ledger-expiry.ts`) is a listing
and one statement for each claim it expires.

* `Retires` is what everything but a claim does to the table: active claims end.
* `claimIssueWithinCap_cases` says what a claim within the cap does, and `LedgerHolds` what every
  step keeps.
* **`claims_capped`**: whatever the processes do, in any order, the cap holds for every repository,
  and a claim is recorded exactly when the answer says so.
-/

namespace LoopOver.ClaimLedger

open List

/-! ## Data -/

/-- Where a claim stands. -/
inductive ClaimStatus
  | active
  | released
  | expired
  deriving DecidableEq

/-- What is unique among the rows. -/
structure ClaimKey where
  apiBaseUrl : String
  repoFullName : String
  issueNumber : ℕ
  deriving DecidableEq

/-- A row of `miner_claims`, and what the ledger returns of it. -/
structure ClaimEntry extends ClaimKey where
  id : ℕ
  claimedAt : ℕ
  status : ClaimStatus
  note : Option String
  deriving DecidableEq

/-- The table, with the last id that was given out. -/
structure MinerClaims where
  rows : List ClaimEntry
  lastId : ℕ

/-- The arguments that name a claim. -/
structure ClaimTarget where
  apiBaseUrl : Untyped
  repoFullName : Untyped
  issueNumber : Untyped

structure RecordClaimInput extends ClaimTarget where
  note : Untyped

/-! ## Arguments -/

def normalizeIssueNumber : Untyped → Except String ℕ := positiveInteger "invalid_issue_number"

def normalizeMaxConcurrentClaims : Untyped → Except String ℕ :=
  positiveInteger "invalid_max_concurrent_claims"

def normalizeNote : Untyped → Except String (Option String)
  | .undefined | .null => .ok none
  | .text note => .ok (some note)
  | _ => .error "invalid_note"

def normalizeKey (target : ClaimTarget) : Except String ClaimKey := do
  let apiBaseUrl ← normalizeApiBaseUrl target.apiBaseUrl
  let repoFullName ← normalizeRepoFullName target.repoFullName
  let issueNumber ← normalizeIssueNumber target.issueNumber
  return ⟨apiBaseUrl, repoFullName, issueNumber⟩

/-! ## Statements -/

/-- Make a claim active again. -/
def reactivate (claimedAt : ℕ) (note : Option String) (row : ClaimEntry) : ClaimEntry :=
  { row with claimedAt := claimedAt, note := note, status := .active }

def recordStatement (key : ClaimKey) (claimedAt : ℕ) (note : Option String) (table : MinerClaims) :
    MinerClaims :=
  if table.rows.any fun row => row.toClaimKey == key then
    { table with
      rows := Table.updateWhere (fun row => row.toClaimKey == key && row.status != .active)
        (reactivate claimedAt note) table.rows }
  else ⟨table.rows ++ [⟨key, table.lastId + 1, claimedAt, .active, note⟩], table.lastId + 1⟩

def getStatement (key : ClaimKey) (table : MinerClaims) : Option ClaimEntry :=
  table.rows.find? fun row => row.toClaimKey == key

/-- The end of an active claim. -/
def retireStatement (status : ClaimStatus) (key : ClaimKey) (table : MinerClaims) :
    Option ClaimEntry × MinerClaims :=
  let (row, rows) :=
    Table.updateReturning (fun row => row.toClaimKey == key && row.status == .active)
    (fun row => { row with status := status }) table.rows
  (row, { table with rows := rows })

def releaseStatement : ClaimKey → MinerClaims → Option ClaimEntry × MinerClaims :=
  retireStatement .released

def expireStatement : ClaimKey → MinerClaims → Option ClaimEntry × MinerClaims :=
  retireStatement .expired

def listStatusStatement (status : ClaimStatus) (table : MinerClaims) : List ClaimEntry :=
  (table.rows.filter fun row => row.status == status).insertionSort fun a b => a.id ≤ b.id

def countActiveRepoStatement (repoFullName : String) (table : MinerClaims) : ℕ :=
  table.rows.countP fun row => row.repoFullName == repoFullName && row.status == .active

/-! ## Operations -/

def recordClaim (claim : RecordClaimInput) (claimedAt : ℕ) (table : MinerClaims) :
    Except String (Option ClaimEntry) × MinerClaims :=
  match normalizeKey claim.toClaimTarget, normalizeNote claim.note with
  | .error e, _ => (.error e, table)
  | .ok _, .error e => (.error e, table)
  | .ok key, .ok note =>
    let table := recordStatement key claimedAt note table
    (.ok (getStatement key table), table)

/-- An operation that is one statement about one claim. -/
def onClaim (statement : ClaimKey → MinerClaims → Option ClaimEntry × MinerClaims)
    (target : ClaimTarget) (table : MinerClaims) :
    Except String (Option ClaimEntry) × MinerClaims :=
  match normalizeKey target with
  | .error e => (.error e, table)
  | .ok key => (.ok (statement key table).1, (statement key table).2)

def releaseClaim : ClaimTarget → MinerClaims → Except String (Option ClaimEntry) × MinerClaims :=
  onClaim releaseStatement

def expireClaim : ClaimTarget → MinerClaims → Except String (Option ClaimEntry) × MinerClaims :=
  onClaim expireStatement

/-- `Number.isFinite(value) && value >= 0`. -/
def isNonNegative : JsNumber → Bool
  | .finite value => 0 ≤ value
  | _ => false

def findExpiredClaims (claims : List ClaimEntry) (nowMs maxAgeMs : JsNumber) :
    Except String (List ClaimEntry) :=
  if !isNonNegative nowMs then .error "invalid_now_ms"
  else if !isNonNegative maxAgeMs then .error "invalid_max_age_ms"
  else .ok (claims.filter fun claim =>
    claim.status == .active && maxAgeMs.lt (nowMs.sub (.finite claim.claimedAt)))

/-- The arguments with which a sweep names a claim. -/
def ClaimKey.target (key : ClaimKey) : ClaimTarget :=
  ⟨.text key.apiBaseUrl, .text key.repoFullName, .number (.finite key.issueNumber)⟩

/-- A key as the ledger writes it. -/
def AcceptedKey (key : ClaimKey) : Prop := normalizeKey key.target = .ok key

/-- The loop of the sweep. -/
def expireClaims : List ClaimEntry → MinerClaims → Except String (List ClaimEntry) × MinerClaims
  | [], table => (.ok [], table)
  | claim :: rest, table =>
    match expireClaim claim.target table with
    | (.error e, table) => (.error e, table)
    | (.ok updated, table) =>
      ((expireClaims rest table).1.map fun transitioned => updated.toList ++ transitioned,
        (expireClaims rest table).2)

def sweepExpiredClaims (nowMs maxAgeMs : JsNumber) (table : MinerClaims) :
    Except String (List ClaimEntry) × MinerClaims :=
  match findExpiredClaims (listStatusStatement .active table) nowMs maxAgeMs with
  | .error e => (.error e, table)
  | .ok expired => expireClaims expired table

/-- `DEFAULT_MAX_CLAIM_AGE_MS`. -/
def defaultMaxClaimAgeMs : JsNumber := .finite (14 * 24 * 60 * 60 * 1000)

structure ClaimWithinCapResult where
  claimed : Bool
  claim : Option ClaimEntry
  activeClaimCount : ℕ
  maxConcurrentClaims : ℕ

/-- The transaction sweeps at one time and records at another. A statement of it may fail (`fault`);
that and every other throw inside rolls it back as a whole. -/
def claimIssueWithinCap (claim : RecordClaimInput) (maxConcurrentClaims : Untyped)
    (sweptAt claimedAt : ℕ) (fault : Option String) (table : MinerClaims) :
    Except String ClaimWithinCapResult × MinerClaims :=
  match normalizeMaxConcurrentClaims maxConcurrentClaims,
    normalizeRepoFullName claim.repoFullName, fault with
  | .error e, _, _ => (.error e, table)
  | .ok _, .error e, _ => (.error e, table)
  | .ok _, .ok _, some e => (.error e, table)
  | .ok cap, .ok normalizedRepo, none =>
    match sweepExpiredClaims (.finite sweptAt) defaultMaxClaimAgeMs table with
    | (.error e, _) => (.error e, table)
    | (.ok _, swept) =>
      let activeClaimCount := countActiveRepoStatement normalizedRepo swept
      if cap ≤ activeClaimCount then (.ok ⟨false, none, activeClaimCount, cap⟩, swept)
      else
        match recordClaim claim claimedAt swept with
        | (.error e, _) => (.error e, table)
        | (.ok recorded, after) => (.ok ⟨true, recorded, activeClaimCount, cap⟩, after)

/-! ## The processes -/

/-- The ledger, and the claims that the sweeps have left to expire. -/
structure LedgerState where
  table : MinerClaims
  sweeps : ℕ → List ClaimEntry

/-- What the miners do to one ledger. -/
inductive Action
  | claimIssueWithinCap (claim : RecordClaimInput) (sweptAt claimedAt : ℕ) (fault : Option String)
  | releaseClaim (target : ClaimTarget)
  | expireClaim (target : ClaimTarget)
  | listExpired (sweeper : ℕ) (nowMs maxAgeMs : JsNumber)
  | expireNext (sweeper : ℕ)

/-- One step of one of the processes, which all claim with the same cap. A sweep that throws is
over. -/
def step (maxConcurrentClaims : Untyped) (s : LedgerState) : Action → Option LedgerState
  | .claimIssueWithinCap claim sweptAt claimedAt fault =>
    some { s with
      table :=
        (ClaimLedger.claimIssueWithinCap claim maxConcurrentClaims sweptAt claimedAt fault
          s.table).2 }
  | .releaseClaim target => some { s with table := (ClaimLedger.releaseClaim target s.table).2 }
  | .expireClaim target => some { s with table := (ClaimLedger.expireClaim target s.table).2 }
  | .listExpired sweeper nowMs maxAgeMs =>
    match findExpiredClaims (listStatusStatement .active s.table) nowMs maxAgeMs with
    | .error _ => some { s with sweeps := Function.update s.sweeps sweeper [] }
    | .ok expired => some { s with sweeps := Function.update s.sweeps sweeper expired }
  | .expireNext sweeper =>
    match s.sweeps sweeper with
    | [] => none
    | claim :: rest =>
      match ClaimLedger.expireClaim claim.target s.table with
      | (.error _, table) => some ⟨table, Function.update s.sweeps sweeper []⟩
      | (.ok _, table) => some ⟨table, Function.update s.sweeps sweeper rest⟩

def emptyLedger : LedgerState := ⟨⟨[], 0⟩, fun _ => []⟩

/-! ## What happens to the rows -/

/-- Active claims end, and nothing else happens. -/
def Retires (table table' : MinerClaims) : Prop :=
  List.Forall₂ (fun row row' => row' = row ∨ row.status = .active ∧
    row'.toClaimKey = row.toClaimKey ∧
    row'.status ≠ .active) table.rows table'.rows

/-- Each claim has one row, and no repository has more active claims than the cap. -/
structure LedgerHolds (cap : ℕ) (table : MinerClaims) : Prop where
  keys : (table.rows.map fun row => row.toClaimKey).Nodup
  accepted : ∀ row ∈ table.rows, AcceptedKey row.toClaimKey
  capped : ∀ repoFullName, countActiveRepoStatement repoFullName table ≤ cap

/-- In the state, the call throws. -/
def Throws (maxConcurrentClaims : Untyped) (s : LedgerState) : Action → Prop
  | .claimIssueWithinCap claim sweptAt claimedAt fault =>
    ∃ e, (ClaimLedger.claimIssueWithinCap claim maxConcurrentClaims sweptAt claimedAt fault
      s.table).1 = .error e
  | .releaseClaim target => ∃ e, (ClaimLedger.releaseClaim target s.table).1 = .error e
  | .expireClaim target => ∃ e, (ClaimLedger.expireClaim target s.table).1 = .error e
  | .listExpired _ nowMs maxAgeMs =>
    ∃ e, findExpiredClaims (listStatusStatement .active s.table) nowMs maxAgeMs = .error e
  | .expireNext sweeper =>
    ∃ claim ∈ (s.sweeps sweeper).head?, ∃ e,
      (ClaimLedger.expireClaim claim.target s.table).1 = .error e

/-- What a call within the cap has done to the ledger when it answers. -/
def AnswerHolds (claim : RecordClaimInput) (before after : MinerClaims)
    (answer : ClaimWithinCapResult) : Prop :=
  if answer.claimed then
    ∃ row ∈ after.rows, answer.claim = some row ∧
      normalizeKey claim.toClaimTarget = .ok row.toClaimKey ∧
      row.status = .active
  else ∀ row ∈ after.rows, row.status = .active → row ∈ before.rows

variable {statement : ClaimKey → MinerClaims → Option ClaimEntry × MinerClaims}

section Rows

variable {table table' table'' : MinerClaims} {key : ClaimKey} {row : ClaimEntry}
  {target : ClaimTarget}
  {repoFullName : String}

theorem retires_refl (table : MinerClaims) : Retires table table :=
  forall₂_same.2 fun _ _ => Or.inl rfl

theorem Retires.trans (h : Retires table table') (h' : Retires table' table'') :
    Retires table table'' := by
  unfold Retires at h h' ⊢
  generalize table.rows = rows at h ⊢
  generalize table'.rows = rows' at h h'
  generalize table''.rows = rows'' at h' ⊢
  induction h generalizing rows'' with
  | nil =>
    cases h'
    exact .nil
  | cons hrow _ ih =>
    cases h' with
    | cons hrow' hrest =>
      refine .cons ?_ (ih _ hrest)
      rcases hrow' with rfl | ⟨hactive, hkey, hended⟩
      · exact hrow
      · rcases hrow with rfl | ⟨hactive', hkey', hended'⟩
        · exact Or.inr ⟨hactive, hkey, hended⟩
        · exact Or.inr ⟨hactive', hkey.trans hkey', hended⟩

theorem retires_retireStatement {status : ClaimStatus} (hstatus : status ≠ .active) (key : ClaimKey)
    (table : MinerClaims) : Retires table (retireStatement status key table).2 := by
  apply (Table.forall₂_updateWhere _ _ table.rows).imp
  rintro row row' (⟨hp, rfl⟩ | ⟨_, rfl⟩)
  · exact Or.inr ⟨beq_iff_eq.1 (Bool.and_eq_true_iff.1 hp).2, rfl, hstatus⟩
  · exact Or.inl rfl

theorem retires_onClaim (h : ∀ key, Retires table (statement key table).2) (target : ClaimTarget) :
    Retires table (onClaim statement target table).2 := by
  unfold onClaim
  cases normalizeKey target with
  | error e => exact retires_refl table
  | ok key => exact h key

theorem retires_releaseClaim (target : ClaimTarget) (table : MinerClaims) :
    Retires table (releaseClaim target table).2 :=
  retires_onClaim (retires_retireStatement (by decide) · table) target

theorem retires_expireClaim (target : ClaimTarget) (table : MinerClaims) :
    Retires table (expireClaim target table).2 :=
  retires_onClaim (retires_retireStatement (by decide) · table) target

theorem retires_expireClaims (claims : List ClaimEntry) (table : MinerClaims) :
    Retires table (expireClaims claims table).2 := by
  induction claims generalizing table with
  | nil => exact retires_refl table
  | cons claim rest ih =>
    have hfirst := retires_expireClaim claim.target table
    rw [expireClaims]
    split
    · next e after hexpire =>
      rw [hexpire] at hfirst
      exact hfirst
    · next updated after hexpire =>
      rw [hexpire] at hfirst
      exact hfirst.trans (ih after)

theorem retires_sweep (nowMs maxAgeMs : JsNumber) (table : MinerClaims) :
    Retires table (sweepExpiredClaims nowMs maxAgeMs table).2 := by
  unfold sweepExpiredClaims
  split
  · exact retires_refl table
  · next expired _ => exact retires_expireClaims expired table

theorem Retires.keys_eq (h : Retires table table') :
    table'.rows.map (fun row => row.toClaimKey) = table.rows.map fun row => row.toClaimKey := by
  unfold Retires at h
  generalize table.rows = rows at h ⊢
  generalize table'.rows = rows' at h ⊢
  induction h with
  | nil => rfl
  | cons hrow _ ih =>
    rw [map_cons, map_cons, ih]
    rcases hrow with rfl | ⟨_, hkey, _⟩
    · rfl
    · rw [hkey]

theorem Retires.count_le (h : Retires table table') (repoFullName : String) :
    countActiveRepoStatement repoFullName table' ≤ countActiveRepoStatement repoFullName table := by
  unfold Retires at h
  unfold countActiveRepoStatement
  generalize table.rows = rows at h ⊢
  generalize table'.rows = rows' at h ⊢
  induction h with
  | nil => exact Nat.le_refl _
  | @cons row row' _ _ hrow _ ih =>
    rw [countP_cons, countP_cons]
    rcases hrow with rfl | ⟨_, _, hended⟩
    · omega
    · have hnot : (row'.repoFullName == repoFullName && row'.status == .active) = false := by
        simp [hended]
      simp only [hnot, Bool.false_eq_true, if_false]
      omega

/-- What is active was active. -/
theorem Retires.active (h : Retires table table') (hrow : row ∈ table'.rows)
    (hactive : row.status = .active) :
    row ∈ table.rows := by
  unfold Retires at h
  generalize table'.rows = rows' at h hrow
  generalize table.rows = rows at h
  induction h with
  | nil => exact absurd hrow not_mem_nil
  | cons hfirst _ ih =>
    rcases mem_cons.1 hrow with rfl | hmem
    · rcases hfirst with rfl | ⟨_, _, hended⟩
      · exact mem_cons_self
      · exact absurd hactive hended
    · exact mem_cons_of_mem _ (ih hmem)

theorem Retires.accepted (h : Retires table table')
    (hrows : ∀ row ∈ table.rows, AcceptedKey row.toClaimKey) :
    ∀ row ∈ table'.rows, AcceptedKey row.toClaimKey := by
  intro row hrow
  have hkey := mem_map_of_mem (f := fun row => row.toClaimKey) hrow
  rw [h.keys_eq] at hkey
  obtain ⟨old, hold, heq⟩ := mem_map.1 hkey
  rw [← heq]
  exact hrows old hold

theorem Retires.holds {cap : ℕ} (h : Retires table table') (hholds : LedgerHolds cap table) :
    LedgerHolds cap table' :=
  ⟨h.keys_eq.symm ▸ hholds.keys, h.accepted hholds.accepted,
    fun repo => (h.count_le repo).trans (hholds.capped repo)⟩

/-! ### Keys -/

theorem normalizeKey_eq_ok :
    normalizeKey target = .ok key ↔ normalizeApiBaseUrl target.apiBaseUrl = .ok key.apiBaseUrl ∧
      normalizeRepoFullName target.repoFullName = .ok key.repoFullName ∧
      normalizeIssueNumber target.issueNumber = .ok key.issueNumber := by
  obtain ⟨apiBaseUrl, repoFullName, issueNumber⟩ := key
  unfold normalizeKey
  cases normalizeApiBaseUrl target.apiBaseUrl with
  | error e => simp [bind, Except.bind]
  | ok apiBaseUrl =>
    cases normalizeRepoFullName target.repoFullName with
    | error e => simp [bind, Except.bind]
    | ok repoFullName =>
      cases normalizeIssueNumber target.issueNumber with
      | error e => simp [bind, Except.bind]
      | ok issueNumber => simp [bind, Except.bind, pure, Except.pure]

theorem acceptedKey_of_normalizeKey (h : normalizeKey target = .ok key) : AcceptedKey key := by
  obtain ⟨hforge, hrepo, hissue⟩ := normalizeKey_eq_ok.1 h
  obtain ⟨hne, htrimmed⟩ := normalizeApiBaseUrl_eq_ok hforge
  exact normalizeKey_eq_ok.2 ⟨normalizeApiBaseUrl_normal hne htrimmed,
    normalizeRepoFullName_normal (normalizeRepoFullName_eq_ok.1 hrepo).1,
    positiveInteger_natCast _ (one_le_of_positiveInteger hissue)⟩

/-! ### What a claim records -/

theorem keys_recordStatement (claimedAt : ℕ) (note : Option String)
    (hkeys : (table.rows.map fun row => row.toClaimKey).Nodup) :
    ((recordStatement key claimedAt note table).rows.map fun row => row.toClaimKey).Nodup := by
  unfold recordStatement
  split
  · have hsame : (Table.updateWhere (fun row => row.toClaimKey == key && row.status != .active)
        (reactivate claimedAt note) table.rows).map (fun row => row.toClaimKey) =
          table.rows.map fun row => row.toClaimKey := Table.keys_updateWhere fun _ _ => rfl
    exact hsame ▸ hkeys
  · next hnew =>
    rw [map_append]
    refine hkeys.append (nodup_singleton _) fun other hmem hother => ?_
    obtain rfl := mem_singleton.1 hother
    obtain ⟨row, hrow, heq⟩ := mem_map.1 hmem
    exact hnew (any_eq_true.2 ⟨row, hrow, beq_iff_eq.2 heq⟩)

theorem mem_keys_recordStatement {claimedAt : ℕ} {note : Option String}
    (hrow : row ∈ (recordStatement key claimedAt note table).rows) :
    row.toClaimKey = key ∨ ∃ old ∈ table.rows, old.toClaimKey = row.toClaimKey := by
  unfold recordStatement at hrow
  split at hrow
  · obtain ⟨old, hold, rfl⟩ := Table.mem_updateWhere.1 hrow
    refine Or.inr ⟨old, hold, ?_⟩
    split <;> rfl
  · rcases mem_append.1 hrow with hold | hnew
    · exact Or.inr ⟨row, hold, rfl⟩
    · obtain rfl := mem_singleton.1 hnew
      exact Or.inl rfl

/-- The count of the repository grows by one at most. -/
theorem count_recordStatement_le (claimedAt : ℕ) (note : Option String)
    (hkeys : (table.rows.map fun row => row.toClaimKey).Nodup) (repoFullName : String) :
    countActiveRepoStatement repoFullName (recordStatement key claimedAt note table) ≤
      countActiveRepoStatement repoFullName table + 1 := by
  unfold recordStatement countActiveRepoStatement
  split
  · have hmoved :=
      Table.countP_updateWhere_le (fun row => row.toClaimKey == key && row.status != .active)
      (fun row => row.repoFullName == repoFullName &&
        row.status == .active) (reactivate claimedAt note) table.rows
    have hone : table.rows.countP (fun row => row.toClaimKey == key && row.status != .active) ≤ 1 :=
      (countP_mono_left fun row _ hp => (Bool.and_eq_true_iff.1 hp).1).trans
        (Table.countP_key_le_one hkeys key)
    exact hmoved.trans (Nat.add_le_add_left hone _)
  · rw [countP_append]
    have hlast : List.countP (fun row : ClaimEntry => row.repoFullName == repoFullName &&
        row.status == .active)
        [⟨key, table.lastId + 1, claimedAt, .active, note⟩] ≤ 1 := countP_le_length
    omega

theorem count_recordStatement_other (claimedAt : ℕ) (note : Option String)
    (hother : key.repoFullName ≠ repoFullName) :
    countActiveRepoStatement repoFullName (recordStatement key claimedAt note table) =
      countActiveRepoStatement repoFullName table := by
  unfold recordStatement countActiveRepoStatement
  split
  · apply Table.countP_updateWhere_eq
    intro row _ hp
    have hkey : row.toClaimKey = key := beq_iff_eq.1 (Bool.and_eq_true_iff.1 hp).1
    have hrow : (row.repoFullName == repoFullName) = false := by
      rw [beq_eq_false_iff_ne, hkey]
      exact hother
    show (row.repoFullName == repoFullName && _) = (row.repoFullName == repoFullName && _)
    rw [hrow, Bool.false_and, Bool.false_and]
  · rw [countP_append, countP_singleton, beq_eq_false_iff_ne.2 hother]
    rfl

/-- The claim that was recorded is active, and is the one that is read back. -/
theorem getStatement_recordStatement (key : ClaimKey) (claimedAt : ℕ) (note : Option String)
    (table : MinerClaims) :
    ∃ row ∈ (recordStatement key claimedAt note table).rows,
      getStatement key (recordStatement key claimedAt note table) = some row ∧
        row.toClaimKey = key := by
  have hfound : ∃ row ∈ (recordStatement key claimedAt note table).rows,
      (row.toClaimKey == key) = true := by
    unfold recordStatement
    split
    · next hany =>
      obtain ⟨old, hold, hkey⟩ := any_eq_true.1 hany
      refine ⟨_, Table.mem_updateWhere_of_mem _ _ hold, ?_⟩
      split <;> exact hkey
    · exact ⟨_, mem_append_right _ mem_cons_self, beq_self_eq_true key⟩
  obtain ⟨row, hrow⟩ := Option.isSome_iff_exists.1 (List.find?_isSome.2 hfound)
  have hkey := List.find?_some hrow
  exact ⟨row, mem_of_find?_eq_some hrow, hrow, beq_iff_eq.1 hkey⟩

theorem active_recordStatement {claimedAt : ℕ} {note : Option String}
    (hrow : row ∈ (recordStatement key claimedAt note table).rows) (hkey : row.toClaimKey = key) :
    row.status = .active := by
  unfold recordStatement at hrow
  split at hrow
  · obtain ⟨old, hold, rfl⟩ := Table.mem_updateWhere.1 hrow
    split
    · rfl
    · next hnot =>
      rw [if_neg hnot] at hkey
      by_contra hended
      exact hnot (Bool.and_eq_true_iff.2 ⟨beq_iff_eq.2 hkey, bne_iff_ne.2 hended⟩)
  · next hnew =>
    rcases mem_append.1 hrow with hold | hlast
    · exact (hnew (any_eq_true.2 ⟨row, hold, beq_iff_eq.2 hkey⟩)).elim
    · obtain rfl := mem_singleton.1 hlast
      rfl

end Rows

/-! ## Calls -/

section Calls

variable {table : MinerClaims} {claim : RecordClaimInput} {maxConcurrentClaims : Untyped}
  {cap sweptAt claimedAt : ℕ}
  {fault : Option String} {target : ClaimTarget}

/-- What a claim within the cap does: nothing, or a sweep, or a sweep and a claim below the cap. -/
theorem claimIssueWithinCap_cases (claim : RecordClaimInput) (maxConcurrentClaims : Untyped)
    (sweptAt claimedAt : ℕ) (fault : Option String) (table : MinerClaims) :
    (∃ e, claimIssueWithinCap claim maxConcurrentClaims sweptAt claimedAt fault table =
      (.error e, table)) ∨
      ∃ cap normalizedRepo swept, normalizeMaxConcurrentClaims maxConcurrentClaims = .ok cap ∧
        normalizeRepoFullName claim.repoFullName = .ok normalizedRepo ∧ Retires table swept ∧
        (claimIssueWithinCap claim maxConcurrentClaims sweptAt claimedAt fault table =
            (.ok ⟨false, none, countActiveRepoStatement normalizedRepo swept, cap⟩, swept) ∨
          countActiveRepoStatement normalizedRepo swept < cap ∧
            ∃ key note, normalizeKey claim.toClaimTarget = .ok key ∧
              claimIssueWithinCap claim maxConcurrentClaims sweptAt claimedAt fault table =
                (.ok ⟨true, getStatement key (recordStatement key claimedAt note swept),
                  countActiveRepoStatement normalizedRepo swept, cap⟩,
                    recordStatement key claimedAt note swept)) := by
  unfold claimIssueWithinCap
  split
  · exact Or.inl ⟨_, rfl⟩
  · exact Or.inl ⟨_, rfl⟩
  · exact Or.inl ⟨_, rfl⟩
  · next cap normalizedRepo hcap hrepo =>
    have hretires := retires_sweep (.finite sweptAt) defaultMaxClaimAgeMs table
    split
    · exact Or.inl ⟨_, rfl⟩
    · next transitioned swept hswept =>
      rw [hswept] at hretires
      by_cases hfull : cap ≤ countActiveRepoStatement normalizedRepo swept
      · rw [if_pos hfull]
        exact Or.inr ⟨cap, normalizedRepo, swept, hcap, hrepo, hretires, Or.inl rfl⟩
      · rw [if_neg hfull]
        unfold recordClaim
        cases hkey : normalizeKey claim.toClaimTarget with
        | error e => exact Or.inl ⟨e, rfl⟩
        | ok key =>
          cases normalizeNote claim.note with
          | error e => exact Or.inl ⟨e, rfl⟩
          | ok note =>
            exact Or.inr ⟨cap, normalizedRepo, swept, hcap, hrepo, hretires,
              Or.inr ⟨Nat.lt_of_not_le hfull, key, note, rfl, rfl⟩⟩

/-- Recording below the cap of its repository keeps to the cap. -/
theorem LedgerHolds.record {key : ClaimKey} (h : LedgerHolds cap table) (hkey : AcceptedKey key)
    (hbelow : countActiveRepoStatement key.repoFullName table < cap) (note : Option String) :
    LedgerHolds cap (recordStatement key claimedAt note table) := by
  refine ⟨keys_recordStatement claimedAt note h.keys, fun row hrow => ?_, fun repoFullName => ?_⟩
  · rcases mem_keys_recordStatement hrow with heq | ⟨old, hold, heq⟩
    · exact heq ▸ hkey
    · exact heq ▸ h.accepted old hold
  · by_cases hsame : key.repoFullName = repoFullName
    · subst hsame
      have hone : countActiveRepoStatement key.repoFullName
          (recordStatement key claimedAt note table) ≤
          countActiveRepoStatement key.repoFullName table + 1 :=
        count_recordStatement_le claimedAt note h.keys key.repoFullName
      omega
    · rw [count_recordStatement_other claimedAt note hsame]
      exact h.capped repoFullName

theorem claimIssueWithinCap_holds
    (hcap : normalizeMaxConcurrentClaims maxConcurrentClaims = .ok cap)
    (h : LedgerHolds cap table) :
    LedgerHolds cap (claimIssueWithinCap claim maxConcurrentClaims sweptAt claimedAt fault
      table).2 := by
  rcases claimIssueWithinCap_cases claim maxConcurrentClaims sweptAt claimedAt fault table with
    ⟨e, heq⟩ |
      ⟨cap', normalizedRepo, swept, hcap', hrepo, hretires, heq | ⟨hbelow, key, note, hkey, heq⟩⟩
  · rw [heq]
    exact h
  · rw [heq]
    exact hretires.holds h
  · rw [heq]
    obtain rfl := Except.ok.inj (hcap.symm.trans hcap')
    obtain rfl := Except.ok.inj (hrepo.symm.trans (normalizeKey_eq_ok.1 hkey).2.1)
    exact (hretires.holds h).record (acceptedKey_of_normalizeKey hkey) hbelow note

theorem claimIssueWithinCap_error {e : String}
    (he : (claimIssueWithinCap claim maxConcurrentClaims sweptAt claimedAt fault table).1 =
      .error e) :
    (claimIssueWithinCap claim maxConcurrentClaims sweptAt claimedAt fault table).2 = table := by
  rcases claimIssueWithinCap_cases claim maxConcurrentClaims sweptAt claimedAt fault table with
    ⟨e, heq⟩ | ⟨cap, normalizedRepo, swept, _, _, _, heq | ⟨_, key, note, _, heq⟩⟩
  · rw [heq]
  · rw [heq] at he
    cases he
  · rw [heq] at he
    cases he

theorem claimIssueWithinCap_answer {answer : ClaimWithinCapResult}
    (hanswer : (claimIssueWithinCap claim maxConcurrentClaims sweptAt claimedAt fault table).1 =
      .ok answer) :
    AnswerHolds claim table (claimIssueWithinCap claim maxConcurrentClaims sweptAt claimedAt fault
      table).2 answer := by
  rcases claimIssueWithinCap_cases claim maxConcurrentClaims sweptAt claimedAt fault table with
    ⟨e, heq⟩ | ⟨cap, normalizedRepo, swept, _, _, hretires, heq | ⟨_, key, note, hkey, heq⟩⟩
  · rw [heq] at hanswer
    cases hanswer
  · rw [heq] at hanswer ⊢
    obtain rfl := Except.ok.inj hanswer
    exact fun row hrow hactive => hretires.active hrow hactive
  · rw [heq] at hanswer ⊢
    obtain rfl := Except.ok.inj hanswer
    obtain ⟨row, hrow, hfound, hrowKey⟩ := getStatement_recordStatement key claimedAt note swept
    exact ⟨row, hrow, hfound, hrowKey ▸ hkey, active_recordStatement hrow hrowKey⟩

theorem onClaim_error {e : String} (he : (onClaim statement target table).1 = .error e) :
    (onClaim statement target table).2 = table := by
  unfold onClaim at he ⊢
  cases hkey : normalizeKey target with
  | error e => rfl
  | ok key =>
    rw [hkey] at he
    cases he

/-- A claim that is in the ledger can be expired. -/
theorem expireClaim_ok {key : ClaimKey} (h : AcceptedKey key) (table : MinerClaims) :
    expireClaim key.target table = (.ok (expireStatement key table).1,
      (expireStatement key table).2) := by
  rw [expireClaim, onClaim, h]

end Calls

/-! ## Runs -/

/-- The ledger holds, and the sweeps expire claims of it. -/
structure StateHolds (cap : ℕ) (s : LedgerState) : Prop where
  ledger : LedgerHolds cap s.table
  sweeps : ∀ sweeper, ∀ claim ∈ s.sweeps sweeper, AcceptedKey claim.toClaimKey

section Runs

variable {maxConcurrentClaims : Untyped} {cap : ℕ} {s s' : LedgerState} {action : Action}

theorem StateHolds.update {claims : List ClaimEntry} (h : StateHolds cap s) (sweeper : ℕ)
    (hclaims : ∀ claim ∈ claims, AcceptedKey claim.toClaimKey) :
    ∀ other, ∀ claim ∈ Function.update s.sweeps sweeper claims other,
      AcceptedKey claim.toClaimKey := by
  intro other claim hclaim
  rw [Function.update_apply] at hclaim
  split at hclaim
  · exact hclaims claim hclaim
  · exact h.sweeps other claim hclaim

theorem mem_of_findExpiredClaims {claims expired : List ClaimEntry} {nowMs maxAgeMs : JsNumber}
    {claim : ClaimEntry} (h : findExpiredClaims claims nowMs maxAgeMs = .ok expired)
    (hclaim : claim ∈ expired) : claim ∈ claims := by
  unfold findExpiredClaims at h
  split at h
  · cases h
  split at h
  · cases h
  obtain rfl := Except.ok.inj h
  exact (mem_filter.1 hclaim).1

theorem mem_of_listStatusStatement {status : ClaimStatus} {table : MinerClaims} {claim : ClaimEntry}
    (hclaim : claim ∈ listStatusStatement status table) : claim ∈ table.rows := by
  rw [listStatusStatement, mem_insertionSort] at hclaim
  exact (mem_filter.1 hclaim).1

theorem step_holds (hcap : normalizeMaxConcurrentClaims maxConcurrentClaims = .ok cap)
    (h : StateHolds cap s) (hstep : step maxConcurrentClaims s action = some s') :
    StateHolds cap s' := by
  cases action with
  | claimIssueWithinCap claim sweptAt claimedAt fault =>
    obtain rfl := Option.some.inj hstep
    exact ⟨claimIssueWithinCap_holds hcap h.ledger, h.sweeps⟩
  | releaseClaim target =>
    obtain rfl := Option.some.inj hstep
    exact ⟨(retires_releaseClaim target s.table).holds h.ledger, h.sweeps⟩
  | expireClaim target =>
    obtain rfl := Option.some.inj hstep
    exact ⟨(retires_expireClaim target s.table).holds h.ledger, h.sweeps⟩
  | listExpired sweeper nowMs maxAgeMs =>
    simp only [step] at hstep
    split at hstep
    · obtain rfl := Option.some.inj hstep
      exact ⟨h.ledger, h.update sweeper fun _ hclaim => absurd hclaim not_mem_nil⟩
    · next expired hexpired =>
      obtain rfl := Option.some.inj hstep
      exact ⟨h.ledger, h.update sweeper fun claim hclaim =>
        h.ledger.accepted claim
          (mem_of_listStatusStatement (mem_of_findExpiredClaims hexpired hclaim))⟩
  | expireNext sweeper =>
    simp only [step] at hstep
    split at hstep
    · cases hstep
    · next claim rest hclaims =>
      have haccepted : ∀ other ∈ rest, AcceptedKey other.toClaimKey := fun other hother =>
        h.sweeps sweeper other (hclaims ▸ mem_cons_of_mem claim hother)
      rw [expireClaim_ok (h.sweeps sweeper claim (hclaims ▸ mem_cons_self))] at hstep
      obtain rfl := Option.some.inj hstep
      exact ⟨(retires_retireStatement (by decide) _ s.table).holds h.ledger,
        h.update sweeper haccepted⟩

/-- **A call that throws leaves the ledger as it was.** -/
theorem table_eq_of_throws (h : StateHolds cap s)
    (hstep : step maxConcurrentClaims s action = some s')
    (hthrows : Throws maxConcurrentClaims s action) : s'.table = s.table := by
  cases action with
  | claimIssueWithinCap claim sweptAt claimedAt fault =>
    obtain ⟨e, he⟩ := hthrows
    obtain rfl := Option.some.inj hstep
    exact claimIssueWithinCap_error he
  | releaseClaim target =>
    obtain ⟨e, he⟩ := hthrows
    obtain rfl := Option.some.inj hstep
    exact onClaim_error he
  | expireClaim target =>
    obtain ⟨e, he⟩ := hthrows
    obtain rfl := Option.some.inj hstep
    exact onClaim_error he
  | listExpired sweeper nowMs maxAgeMs =>
    obtain ⟨e, he⟩ := hthrows
    simp only [step, he] at hstep
    obtain rfl := Option.some.inj hstep
    rfl
  | expireNext sweeper =>
    -- a sweep that has listed its claims expires them all
    obtain ⟨claim, hclaim, e, he⟩ := hthrows
    rw [expireClaim_ok (h.sweeps sweeper claim (mem_of_mem_head? hclaim))] at he
    cases he

theorem emptyLedger_holds (cap : ℕ) : StateHolds cap emptyLedger :=
  ⟨⟨nodup_nil, fun _ hrow => absurd hrow not_mem_nil, fun _ => Nat.zero_le cap⟩,
    fun _ _ hclaim => absurd hclaim not_mem_nil⟩

end Runs

/-- **The cap holds whatever the processes do**: in every run no repository has more active claims
than the cap, and each claim has one row; a claim within the cap has made its claim active when it
says so, and no other one when it does not; and a call that throws has changed nothing. -/
theorem claims_capped {maxConcurrentClaims : Untyped} {cap : ℕ} {actions : List Action}
    {s : LedgerState} (hcap : normalizeMaxConcurrentClaims maxConcurrentClaims = .ok cap)
    (hrun : Runs.run (step maxConcurrentClaims) emptyLedger actions = some s) :
    (∀ repoFullName, countActiveRepoStatement repoFullName s.table ≤ cap) ∧
      (s.table.rows.map fun row => row.toClaimKey).Nodup ∧
      (∀ before after claim sweptAt claimedAt fault answer,
        Runs.Occurs (step maxConcurrentClaims) emptyLedger actions before
          (.claimIssueWithinCap claim sweptAt claimedAt fault) after →
        (claimIssueWithinCap claim maxConcurrentClaims sweptAt claimedAt fault before.table).1 =
          .ok answer →
        AnswerHolds claim before.table after.table answer) ∧
      ∀ before after action,
        Runs.Occurs (step maxConcurrentClaims) emptyLedger actions before action after →
        Throws maxConcurrentClaims before action → after.table = before.table := by
  have hholds : ∀ {actions s}, Runs.run (step maxConcurrentClaims) emptyLedger actions = some s →
      StateHolds cap s :=
    fun hrun => Runs.run_invariant (step_holds hcap) hrun (emptyLedger_holds cap)
  refine ⟨(hholds hrun).ledger.capped, (hholds hrun).ledger.keys, ?_, ?_⟩
  · rintro before after claim sweptAt claimedAt fault answer ⟨front, back, rfl, _, hstep⟩ hanswer
    obtain rfl := Option.some.inj hstep
    exact claimIssueWithinCap_answer hanswer
  · rintro before after action ⟨front, back, rfl, hfront, hstep⟩ hthrows
    exact table_eq_of_throws (hholds hfront) hstep hthrows

/-- A claim of the default forge. -/
def sampleClaim (issueNumber : ℕ) : RecordClaimInput :=
  ⟨⟨.undefined, .text "acme/web", .number (.finite issueNumber)⟩, .undefined⟩

/-- With a cap of one, the second claim has to wait for the release of the first one. -/
theorem claims_capped_sample : ∃ s,
    Runs.run (step (.number 1)) emptyLedger [.claimIssueWithinCap (sampleClaim 7) 0 0 none,
      .claimIssueWithinCap (sampleClaim 8) 5 5 none, .releaseClaim (sampleClaim 7).toClaimTarget,
      .claimIssueWithinCap (sampleClaim 8) 9 9 none] = some s ∧
    countActiveRepoStatement "acme/web" s.table ≤ 1 := by
  have hrun : (Runs.run (step (.number 1)) emptyLedger
      [.claimIssueWithinCap (sampleClaim 7) 0 0 none,
      .claimIssueWithinCap (sampleClaim 8) 5 5 none, .releaseClaim (sampleClaim 7).toClaimTarget,
      .claimIssueWithinCap (sampleClaim 8) 9 9 none]).isSome = true := by
    rfl
  obtain ⟨s, hs⟩ := Option.isSome_iff_exists.1 hrun
  exact ⟨s, hs, (claims_capped (by decide +kernel) hs).1 "acme/web"⟩

end LoopOver.ClaimLedger
