import LoopOver.Postgres.Programs

/-!
# One running job per key

A claim tests that no row with the key of its candidate is processing, in the snapshot that the
statement took when it began. The advisory lock on the key comes later: a statement that takes it
after another one has claimed a row with the key and ended still does not see that row. `enqueue`
also writes the key of a row that may have been claimed since it was read.

* `ClaimsSound` is what holds of the rows and the claims in progress, and `ClaimsSound.step` keeps
  it.
* `one_running`: in a run whose calls meet `KeysApart`, no two rows with one key are processing,
  whatever the programs are that make the calls.
-/

namespace LoopOver.Postgres

open List Queue

variable {P : Type}

/-- A job with the key is running. -/
def isRunning (key : String) (row : PgRow P) : Bool :=
  row.status == .processing && row.jobKey == some key

variable {key : String}

@[simp] theorem isRunning_iff {row : PgRow P} :
    isRunning key row = true ↔ row.status = .processing ∧ row.jobKey = some key := by
  simp [isRunning]

theorem keyIdle_eq_false {rows : List (PgRow P)} :
    keyIdle rows key = false ↔ ∃ row ∈ rows, isRunning key row = true := by
  simp [keyIdle, isRunning]

/-! ## The condition -/

section Condition

/-- The claim that a call ends. -/
def PgCall.commits? : PgCall P → Option ℕ
  | .commitClaim token => some token
  | _ => none

/-- The message that takes the place of the job of a row with another key. -/
def PgCall.supersedes? : PgCall P → Option (P × ℕ)
  | .update (.supersede _ message _ id) => some (message, id)
  | _ => none

variable (reader : JobReader P)

/-- A claim takes no row with a key that another one has claimed since it began, and a job that
supersedes another does not change the key of a running one. -/
def PgDb.KeysApart (db : PgDb P) (call : PgCall P) : Prop :=
  (∀ token ∈ call.commits?, ∀ claim ∈ db.statement token, ∀ row ∈ db.chosenRow claim,
    ∀ key ∈ row.jobKey,
    key ∉ claim.overlapped) ∧
  ∀ message id, call.supersedes? = some (message, id) → ∀ row ∈ db.rows, row.id = id →
    row.status = .processing →
    row.jobKey = reader.jobCoalesceKey message

/-- The calls of a run that keeps keys apart. -/
def apartAnswers : Answers (PgReply P) (PgDb P) := fun db call reply after =>
  db.KeysApart reader call ∧ PgDb.answers reader db call reply after

end Condition

/-! ## The invariant -/

structure ClaimsSound (db : PgDb P) : Prop where
  ids : (db.rows.map (·.id)).Nodup
  ids_lt : ∀ row ∈ db.rows, row.id < db.nextId
  tokens : (db.statements.map (·.token)).Nodup
  tokens_lt : ∀ claim ∈ db.statements, claim.token < db.clock
  locked_lt : ∀ claim ∈ db.statements, ∀ id ∈ claim.locked, id < db.nextId
  locked : ∀ claim ∈ db.statements, ∀ other ∈ db.statements, claim.token ≠ other.token →
    ∀ id ∈ claim.locked, id ∉ other.locked
  /-- A job runs in the snapshot of a claim, or was claimed since. -/
  seen : ∀ claim ∈ db.statements, ∀ row ∈ db.rows, ∀ key, isRunning key row = true →
    keyIdle claim.snapshot key = false ∨ key ∈ claim.overlapped
  chosen : ∀ claim ∈ db.statements, ∀ id, claim.chosen = some id → id ∈ claim.locked ∧
    ∀ row ∈ db.rows, row.id = id → row.status = .pending ∧
      ∀ key, row.jobKey = some key → keyIdle claim.snapshot key = true
  one : ∀ key, ∀ a ∈ db.rows, ∀ b ∈ db.rows, isRunning key a = true →
    isRunning key b = true → a.id = b.id

section Steps

variable {reader : JobReader P} {db after : PgDb P} {claim : ClaimStatement P}

theorem claimsSound_emptyPgDb : ClaimsSound (emptyPgDb : PgDb P) where
  ids := nodup_nil
  ids_lt _ h := by cases h
  tokens := nodup_nil
  tokens_lt _ h := by cases h
  locked_lt _ h := by cases h
  locked _ h := by cases h
  seen _ h := by cases h
  chosen _ h := by cases h
  one _ _ h := by cases h

/-- The calls are counted on. -/
theorem ClaimsSound.tick (h : ClaimsSound db) {clock : ℕ} (hclock : db.clock ≤ clock) :
    ClaimsSound { db with clock := clock } :=
  { h with tokens_lt := fun claim hclaim => (h.tokens_lt claim hclaim).trans_le hclock }

/-- **A change of rows** keeps the invariant, when locked rows stay and no job begins to run. -/
theorem ClaimsSound.ofRows (h : ClaimsSound db) {rows : List (PgRow P)}
    (hids : (rows.map (·.id)).Nodup)
    (hlt : ∀ row ∈ rows, row.id < db.nextId)
    (hlocked : ∀ row ∈ rows, ∀ claim ∈ db.statements, row.id ∈ claim.locked → row ∈ db.rows)
    (hrunning : ∀ row ∈ rows, ∀ key, isRunning key row = true →
      ∃ old ∈ db.rows, old.id = row.id ∧ isRunning key old = true) :
    ClaimsSound { db with rows := rows } where
  ids := hids
  ids_lt := hlt
  tokens := h.tokens
  tokens_lt := h.tokens_lt
  locked_lt := h.locked_lt
  locked := h.locked
  seen claim hclaim row hrow key hrun := by
    obtain ⟨old, hold, _, hrun⟩ := hrunning row hrow key hrun
    exact h.seen claim hclaim old hold key hrun
  chosen claim hclaim id hchosen := by
    obtain ⟨hmem, hpending⟩ := h.chosen claim hclaim id hchosen
    refine ⟨hmem, fun row hrow hid => ?_⟩
    exact hpending row (hlocked row hrow claim hclaim (hid ▸ hmem)) hid
  one key a ha b hb hrunA hrunB := by
    obtain ⟨a', ha', hidA, hrunA⟩ := hrunning a ha key hrunA
    obtain ⟨b', hb', hidB, hrunB⟩ := hrunning b hb key hrunB
    rw [← hidA, ← hidB]
    exact h.one key a' ha' b' hb' hrunA hrunB

/-! ### Writes -/

theorem set_id (u : RowUpdate P) (row : Row P) : (u.set reader row).id = row.id := by
  cases u <;> rfl

/-- No `UPDATE` but the claim starts a job, and only superseding one changes its key. -/
theorem running_of_set {u : RowUpdate P} {row : Row P} (hhits : u.hits row = true)
    (hstatus : (u.set reader row).status = .processing) :
    row.status = .processing ∧ ((u.set reader row).jobKey = row.jobKey ∨
      ∃ now message delaySeconds, u = .supersede now message delaySeconds row.id ∧
        (u.set reader row).jobKey = reader.jobCoalesceKey message) := by
  cases u with
  | merge now message merged delaySeconds id jobKey =>
    have hpending : row.status = .pending := by
      simp only [RowUpdate.hits, Bool.and_eq_true, beq_iff_eq] at hhits
      exact hhits.1.2
    have hprocessing : row.status = .processing := hstatus
    rw [hpending] at hprocessing
    cases hprocessing
  | supersede now message delaySeconds id =>
    obtain rfl : row.id = id := by simpa [RowUpdate.hits] using hhits
    exact ⟨hstatus, Or.inr ⟨now, message, delaySeconds, rfl, rfl⟩⟩
  | coalesce now message delaySeconds id => exact ⟨hstatus, Or.inl rfl⟩
  | reschedule runAfter error id => exact ⟨hstatus, Or.inl rfl⟩
  | deferPending runAfter id => exact ⟨hstatus, Or.inl rfl⟩
  | heartbeat now id => exact ⟨hstatus, Or.inl rfl⟩
  | _ => cases hstatus

theorem ClaimsSound.update (h : ClaimsSound db) {u : RowUpdate P} (hunlocked : db.Unlocked u.hits)
    (hapart : db.KeysApart reader (.update u)) : ClaimsSound (db.update reader u) := by
  have hrows : ∀ row ∈ (db.update reader u).rows, ∃ old ∈ db.rows, old.id = row.id ∧
      (row = old ∨ u.hits old.toRow = true ∧ row = db.setRow reader u old) := by
    intro row hrow
    obtain ⟨old, hold, rfl⟩ := Table.mem_updateWhere.1 hrow
    split_ifs with hhits
    · exact ⟨old, hold, (set_id u old.toRow).symm, Or.inr ⟨hhits, rfl⟩⟩
    · exact ⟨old, hold, rfl, Or.inl rfl⟩
  apply h.ofRows
  · rw [Table.keys_updateWhere]
    · exact h.ids
    · exact fun row _ => set_id u row.toRow
  · intro row hrow
    obtain ⟨old, hold, hid, _⟩ := hrows row hrow
    rw [← hid]
    exact h.ids_lt old hold
  · intro row hrow claim hclaim hlocked
    obtain ⟨old, hold, hid, rfl | ⟨hhits, _⟩⟩ := hrows row hrow
    · exact hold
    · exact absurd (hid ▸ hlocked) (hunlocked old hold hhits claim hclaim)
  · intro row hrow key hrun
    obtain ⟨old, hold, hid, rfl | ⟨hhits, rfl⟩⟩ := hrows row hrow
    · exact ⟨row, hold, rfl, hrun⟩
    · refine ⟨old, hold, hid, ?_⟩
      obtain ⟨hstatus, hkey⟩ := isRunning_iff.1 hrun
      obtain ⟨hprocessing, hsame | ⟨now, message, delaySeconds, rfl, hsame⟩⟩ :=
        running_of_set hhits hstatus
      · exact isRunning_iff.2 ⟨hprocessing, hsame.symm.trans hkey⟩
      · have hkeyed : old.jobKey = reader.jobCoalesceKey message :=
          hapart.2 message old.id rfl old hold rfl hprocessing
        exact isRunning_iff.2 ⟨hprocessing, hkeyed.trans (hsame.symm.trans hkey)⟩

theorem ClaimsSound.delete (h : ClaimsSound db) (d : RowDelete P) : ClaimsSound (db.delete d) := by
  have hmem : ∀ row ∈ (db.delete d).rows, row ∈ db.rows :=
    fun row hrow => (Table.mem_deleteWhere.1 hrow).1
  have hrows : ClaimsSound { db with rows := (db.delete d).rows } := by
    apply h.ofRows
    · exact h.ids.sublist (Table.keys_deleteWhere _)
    · exact fun row hrow => h.ids_lt row (hmem row hrow)
    · exact fun row hrow _ _ _ => hmem row hrow
    · exact fun row hrow key hrun => ⟨row, hmem row hrow, rfl, hrun⟩
  exact { hrows with }

theorem ClaimsSound.insertJob (h : ClaimsSound db) (now : ℚ) (message : P) (delaySeconds : ℚ) :
    ClaimsSound (db.insertJob reader now message delaySeconds) := by
  have hnext : ClaimsSound { db with nextId := db.nextId + 1 } :=
    { h with
      ids_lt := fun row hrow => (h.ids_lt row hrow).trans (Nat.lt_succ_self _)
      locked_lt :=
        fun claim hclaim id hid => (h.locked_lt claim hclaim id hid).trans (Nat.lt_succ_self _) }
  apply hnext.ofRows
  · apply Table.nodup_keys_concat h.ids
    intro hmem
    obtain ⟨row, hrow, hid⟩ := mem_map.1 hmem
    exact absurd (h.ids_lt row hrow) hid.ge.not_gt
  · intro row hrow
    obtain hold | rfl := mem_append.1 hrow |>.imp_right mem_singleton.1
    · exact (h.ids_lt row hold).trans (Nat.lt_succ_self _)
    · exact Nat.lt_succ_self _
  · intro row hrow claim hclaim hlocked
    obtain hold | rfl := mem_append.1 hrow |>.imp_right mem_singleton.1
    · exact hold
    · exact absurd (h.locked_lt claim hclaim _ hlocked) (lt_irrefl _)
  · intro row hrow key hrun
    obtain hold | rfl := mem_append.1 hrow |>.imp_right mem_singleton.1
    · exact ⟨row, hold, rfl, hrun⟩
    · cases (isRunning_iff.1 hrun).1

/-! ### Claims -/

/-- A claim that begins sees all rows. -/
theorem ClaimsSound.beginClaim (h : ClaimsSound db) (now : ℚ) (eligible : Row P → Bool) :
    ClaimsSound { db.beginClaim now eligible with clock := db.clock + 1 } where
  ids := h.ids
  ids_lt := h.ids_lt
  tokens := by
    apply nodup_cons.2 ⟨?_, h.tokens⟩
    intro hmem
    obtain ⟨claim, hclaim, htoken⟩ := mem_map.1 hmem
    exact absurd (h.tokens_lt claim hclaim) htoken.ge.not_gt
  tokens_lt claim hclaim := by
    obtain rfl | hold := mem_cons.1 hclaim
    · exact Nat.lt_succ_self _
    · exact (h.tokens_lt claim hold).trans (Nat.lt_succ_self _)
  locked_lt claim hclaim id hid := by
    obtain rfl | hold := mem_cons.1 hclaim
    · cases hid
    · exact h.locked_lt claim hold id hid
  locked claim hclaim other hother hne id hid := by
    obtain rfl | hclaim := mem_cons.1 hclaim
    · cases hid
    · obtain rfl | hother := mem_cons.1 hother
      · exact not_mem_nil
      · exact h.locked claim hclaim other hother hne id hid
  seen claim hclaim row hrow key hrun := by
    obtain rfl | hold := mem_cons.1 hclaim
    · exact Or.inl (keyIdle_eq_false.2 ⟨row, hrow, hrun⟩)
    · exact h.seen claim hold row hrow key hrun
  chosen claim hclaim id hchosen := by
    obtain rfl | hold := mem_cons.1 hclaim
    · cases hchosen
    · exact h.chosen claim hold id hchosen
  one := h.one

/-- What a claim in progress may do: lock rows that no other has locked, and choose one that is
pending and whose key is idle in its snapshot. -/
structure Proceeds (db : PgDb P) (claim next : ClaimStatement P) : Prop where
  token : next.token = claim.token
  snapshot : next.snapshot = claim.snapshot
  overlapped : next.overlapped = claim.overlapped
  locked : ∀ id ∈ next.locked, id ∈ claim.locked ∨
    id < db.nextId ∧ ∀ other ∈ db.statements, other.token ≠ claim.token → id ∉ other.locked
  chosen : ∀ id, next.chosen = some id → id ∈ next.locked ∧ ∀ row ∈ db.rows, row.id = id →
    row.status = .pending ∧
    ∀ key, row.jobKey = some key → keyIdle claim.snapshot key = true

theorem ClaimsSound.proceeds_rfl (h : ClaimsSound db) (hclaim : claim ∈ db.statements) :
    Proceeds db claim claim :=
  ⟨rfl, rfl, rfl, fun _ hid => Or.inl hid, h.chosen claim hclaim⟩

theorem ClaimsSound.stepClaim (h : ClaimsSound db) {token : ℕ}
    {f : ClaimStatement P → ClaimStatement P}
    (hf : ∀ claim ∈ db.statements, Proceeds db claim (f claim)) :
    ClaimsSound (db.stepClaim token f) := by
  have hcases : ∀ next ∈ (db.stepClaim token f).statements, ∃ claim ∈ db.statements,
      Proceeds db claim next ∧ (next = claim ∨ claim.token = token) := by
    intro next hnext
    obtain ⟨claim, hclaim, rfl⟩ := mem_map.1 hnext
    refine ⟨claim, hclaim, ?_⟩
    split_ifs with htoken
    · exact ⟨hf claim hclaim, Or.inr htoken⟩
    · exact ⟨h.proceeds_rfl hclaim, Or.inl rfl⟩
  constructor
  · exact h.ids
  · exact h.ids_lt
  · have hsame : (db.stepClaim token f).statements.map (·.token) = db.statements.map (·.token) := by
      rw [PgDb.stepClaim, map_map]
      apply map_congr_left
      intro claim hclaim
      show (if claim.token = token then f claim else claim).token = claim.token
      split_ifs
      · exact (hf claim hclaim).token
      · rfl
    rw [hsame]
    exact h.tokens
  · intro next hnext
    obtain ⟨claim, hclaim, hproceeds, _⟩ := hcases next hnext
    rw [hproceeds.token]
    exact h.tokens_lt claim hclaim
  · intro next hnext id hid
    obtain ⟨claim, hclaim, hproceeds, _⟩ := hcases next hnext
    obtain hold | ⟨hlt, _⟩ := hproceeds.locked id hid
    · exact h.locked_lt claim hclaim id hold
    · exact hlt
  · intro next hnext other hother hne id hid hid'
    obtain ⟨claim, hclaim, hproceeds, hown⟩ := hcases next hnext
    obtain ⟨claim', hclaim', hproceeds', hown'⟩ := hcases other hother
    rw [hproceeds.token, hproceeds'.token] at hne
    obtain hold | ⟨_, hfree⟩ := hproceeds.locked id hid
    · obtain hold' | ⟨_, hfree'⟩ := hproceeds'.locked id hid'
      · exact h.locked claim hclaim claim' hclaim' hne id hold hold'
      · exact hfree' claim hclaim hne hold
    · -- Only the statement of the token goes on, so the other one has the row already.
      obtain rfl | htoken' := hown'
      · exact hfree other hclaim' hne.symm hid'
      · obtain rfl | htoken := hown
        · obtain hold' | ⟨_, hfree'⟩ := hproceeds'.locked id hid'
          · exact hfree claim' hclaim' hne.symm hold'
          · exact hfree' next hclaim hne hid
        · exact hne (htoken.trans htoken'.symm)
  · intro next hnext row hrow key hrun
    obtain ⟨claim, hclaim, hproceeds, _⟩ := hcases next hnext
    rw [hproceeds.snapshot, hproceeds.overlapped]
    exact h.seen claim hclaim row hrow key hrun
  · intro next hnext id hchosen
    obtain ⟨claim, hclaim, hproceeds, _⟩ := hcases next hnext
    rw [hproceeds.snapshot]
    exact hproceeds.chosen id hchosen
  · exact h.one

theorem keyTest_idle {jobKey : Option String} (h : (db.keyTest claim jobKey).1 = true)
    (hkey : jobKey = some key) : keyIdle claim.snapshot key = true := by
  subst hkey
  rw [PgDb.keyTest] at h
  split_ifs at h
  exact h

theorem ClaimsSound.scan (h : ClaimsSound db) (hclaim : claim ∈ db.statements) :
    Proceeds db claim (db.scan claim) := by
  have hsame := h.proceeds_rfl hclaim
  rw [PgDb.scan]
  split
  · exact hsame
  · exact ⟨rfl, rfl, rfl, hsame.locked, hsame.chosen⟩

theorem ClaimsSound.lockNext (h : ClaimsSound db) (hclaim : claim ∈ db.statements) :
    Proceeds db claim (db.lockNext claim) := by
  have hsame := h.proceeds_rfl hclaim
  rw [PgDb.lockNext]
  split
  swap
  · exact hsame
  next row passed hchosen _ =>
  have hnone : ∀ id, claim.chosen ≠ some id := fun id hid => by rw [hchosen] at hid; cases hid
  split_ifs with hlocked
  · exact ⟨rfl, rfl, rfl, hsame.locked, hsame.chosen⟩
  split
  · exact ⟨rfl, rfl, rfl, hsame.locked, hsame.chosen⟩
  next current hcurrent =>
  have hmem := mem_of_find?_eq_some hcurrent
  have hid : current.id = row.id := by simpa using List.find?_some hcurrent
  have hlocks : ∀ id ∈ row.id :: claim.locked, id ∈ claim.locked ∨
      id < db.nextId ∧ ∀ other ∈ db.statements, other.token ≠ claim.token → id ∉ other.locked := by
    intro id hmemId
    obtain rfl | hold := mem_cons.1 hmemId
    · refine Or.inr ⟨hid ▸ h.ids_lt current hmem, fun other hother hne hheld => hlocked ?_⟩
      simp only [PgDb.lockedByOther, any_eq_true, Bool.and_eq_true, bne_iff_ne, contains_iff_mem]
      exact ⟨other, hother, hne, hheld⟩
    · exact Or.inl hold
  split_ifs with hcandidate
  · refine ⟨rfl, rfl, rfl, hlocks, ?_⟩
    intro id hid'
    dsimp only at hid'
    split_ifs at hid' with htest
    obtain rfl := Option.some.inj hid'
    refine ⟨mem_cons_self, fun other hother hsameId => ?_⟩
    obtain rfl := Table.eq_of_key h.ids hother hmem (hsameId.trans hid.symm)
    simp only [isCandidate, Bool.and_eq_true, beq_iff_eq] at hcandidate
    exact ⟨hcandidate.1.1, fun key hkey => keyTest_idle htest hkey⟩
  · exact ⟨rfl, rfl, rfl, hlocks, fun id hid' => absurd hid' (hnone id)⟩

theorem ClaimsSound.endClaim (h : ClaimsSound db) (token : ℕ) :
    ClaimsSound (db.endClaim token) := by
  have hmem : ∀ claim ∈ (db.endClaim token).statements, claim ∈ db.statements :=
    fun claim hclaim => (mem_filter.1 hclaim).1
  exact
    { h with
      tokens := h.tokens.sublist ((filter_sublist).map _)
      tokens_lt := fun claim hclaim => h.tokens_lt claim (hmem claim hclaim)
      locked_lt := fun claim hclaim => h.locked_lt claim (hmem claim hclaim)
      locked := fun claim hclaim other hother =>
        h.locked claim (hmem claim hclaim) other (hmem other hother)
      seen := fun claim hclaim => h.seen claim (hmem claim hclaim)
      chosen := fun claim hclaim => h.chosen claim (hmem claim hclaim) }

/-- The statement that ends with a row, and the row. -/
theorem commitClaim_cases (db : PgDb P) (token : ℕ) :
    (db.commitClaim token = (none, db.endClaim token)) ∨
      ∃ claim row, db.statement token = some claim ∧ db.chosenRow claim = some row ∧
        db.commitClaim token = (some (db.claimed claim.now row),
          { db.endClaim token with
            rows := Table.updateWhere (fun other => other.id == row.id)
              (db.claimed claim.now) db.rows
            statements := (db.endClaim token).statements.map (PgDb.overlap row.jobKey) }) := by
  rw [PgDb.commitClaim]
  cases hfound : (db.statement token).bind fun claim =>
    (db.chosenRow claim).map (Prod.mk claim) with
  | none => exact Or.inl rfl
  | some found =>
    obtain ⟨claim, hclaim, hrow⟩ := Option.bind_eq_some_iff.1 hfound
    obtain ⟨row, hchosen, rfl⟩ := Option.map_eq_some_iff.1 hrow
    exact Or.inr ⟨claim, row, hclaim, hchosen, rfl⟩

/-- A row of the table after a claim. -/
theorem mem_claimed {claim : ClaimStatement P} {row other : PgRow P}
    (h : other ∈ Table.updateWhere (fun old => old.id == row.id) (db.claimed claim.now) db.rows) :
    (other ∈ db.rows ∧ other.id ≠ row.id) ∨
      ∃ old ∈ db.rows, old.id = row.id ∧ other = db.claimed claim.now old := by
  obtain ⟨old, hold, rfl⟩ := Table.mem_updateWhere.1 h
  split_ifs with hid
  · exact Or.inr ⟨old, hold, eq_of_beq hid, rfl⟩
  · exact Or.inl ⟨hold, fun hsame => hid (beq_iff_eq.2 hsame)⟩

/-- **A claim keeps the invariant**, unless another one has claimed the key since it began. -/
theorem ClaimsSound.commitClaim (h : ClaimsSound db) {token : ℕ}
    (hapart : db.KeysApart reader (.commitClaim token)) :
    ClaimsSound (db.commitClaim token).2 := by
  obtain hnone | ⟨claim, row, hstatement, hchosenRow, hcommit⟩ := commitClaim_cases db token
  · rw [hnone]
    exact h.endClaim token
  rw [hcommit]
  have hclaim : claim ∈ db.statements := mem_of_find?_eq_some hstatement
  have htoken : claim.token = token := by simpa using List.find?_some hstatement
  obtain ⟨id, hchosen, hfound⟩ := Option.bind_eq_some_iff.1 hchosenRow
  have hrow : row ∈ db.rows := mem_of_find?_eq_some hfound
  obtain rfl : row.id = id := by simpa using List.find?_some hfound
  obtain ⟨hlocked, hfree⟩ := h.chosen claim hclaim row.id hchosen
  have hidle := (hfree row hrow rfl).2
  have hother : ∀ next ∈ (db.endClaim token).statements.map (PgDb.overlap row.jobKey),
      ∃ other ∈ db.statements,
      other.token ≠ token ∧ next = PgDb.overlap row.jobKey other := by
    intro next hnext
    obtain ⟨other, hother, rfl⟩ := mem_map.1 hnext
    obtain ⟨hother, hne⟩ := mem_filter.1 hother
    exact ⟨other, hother, of_decide_eq_true hne, rfl⟩
  constructor
  · rw [Table.keys_updateWhere]
    · exact h.ids
    · exact fun _ _ => rfl
  · intro next hnext
    obtain ⟨hold, _⟩ | ⟨old, hold, _, rfl⟩ := mem_claimed hnext
    · exact h.ids_lt next hold
    · exact h.ids_lt old hold
  · rw [map_map]
    exact (h.endClaim token).tokens
  · intro next hnext
    obtain ⟨other, hother, _, rfl⟩ := hother next hnext
    exact h.tokens_lt other hother
  · intro next hnext
    obtain ⟨other, hother, _, rfl⟩ := hother next hnext
    exact h.locked_lt other hother
  · intro next hnext next' hnext' hne
    obtain ⟨a, ha, _, rfl⟩ := hother next hnext
    obtain ⟨b, hb, _, rfl⟩ := hother next' hnext'
    exact h.locked a ha b hb hne
  · intro next hnext other hmem key hrun
    obtain ⟨claim', hclaim', _, rfl⟩ := hother next hnext
    obtain ⟨hold, _⟩ | ⟨old, hold, hid, rfl⟩ := mem_claimed hmem
    · exact (h.seen claim' hclaim' other hold key hrun).imp_right (mem_append_right _)
    · obtain rfl := Table.eq_of_key h.ids hold hrow hid
      right
      apply mem_append_left
      rw [Option.mem_toList]
      exact (isRunning_iff.1 hrun).2
  · intro next hnext id hnextChosen
    obtain ⟨claim', hclaim', hne, rfl⟩ := hother next hnext
    obtain ⟨hlocked', hpending⟩ := h.chosen claim' hclaim' id hnextChosen
    refine ⟨hlocked', fun other hmem hid => ?_⟩
    obtain ⟨hold, _⟩ | ⟨old, hold, hsame, rfl⟩ := mem_claimed hmem
    · exact hpending other hold hid
    · -- The row is locked by the statement that ends.
      have hsameId : id = row.id := hid.symm.trans hsame
      rw [hsameId] at hlocked'
      exact absurd hlocked' (h.locked claim hclaim claim' hclaim' (htoken.trans_ne hne.symm)
        row.id hlocked)
  · have hnew : ∀ key other, other ∈ db.rows → isRunning key other = true →
        row.jobKey = some key → False := by
      intro key other hmem hrun hkey
      obtain hbusy | hoverlapped := h.seen claim hclaim other hmem key hrun
      · rw [hidle key hkey] at hbusy
        cases hbusy
      · exact hapart.1 token rfl claim hstatement row hchosenRow key hkey hoverlapped
    intro key a ha b hb hrunA hrunB
    obtain ⟨holdA, _⟩ | ⟨a', ha', hidA, rfl⟩ := mem_claimed ha
    · obtain ⟨holdB, _⟩ | ⟨b', hb', hidB, rfl⟩ := mem_claimed hb
      · exact h.one key a holdA b holdB hrunA hrunB
      · obtain rfl := Table.eq_of_key h.ids hb' hrow hidB
        exact (hnew key a holdA hrunA (isRunning_iff.1 hrunB).2).elim
    · obtain rfl := Table.eq_of_key h.ids ha' hrow hidA
      obtain ⟨holdB, _⟩ | ⟨b', hb', hidB, rfl⟩ := mem_claimed hb
      · exact (hnew key b holdB hrunB (isRunning_iff.1 hrunA).2).elim
      · exact hidB.symm

/-- **Every call that keeps keys apart keeps the invariant.** -/
theorem ClaimsSound.step {call : PgCall P} {reply : PgReply P call} (h : ClaimsSound db)
    (hanswer : apartAnswers reader db call reply after) : ClaimsSound after := by
  obtain ⟨hapart, served, hserved, rfl⟩ := hanswer
  have hticks : ∀ {served : PgDb P}, served.clock = db.clock → ClaimsSound served →
      ClaimsSound { served with clock := db.clock + 1 } :=
    fun hclock hsound => hsound.tick (hclock.le.trans (Nat.le_succ _))
  have hsame := hticks rfl h
  cases call with
  | update u =>
    obtain ⟨hunlocked, houtcome⟩ := hserved
    obtain rfl | rfl := houtcome.cases
    · exact hsame
    · exact hticks rfl (h.update hunlocked hapart)
  | insertJob now message delaySeconds =>
    obtain rfl | rfl := hserved.cases
    · exact hsame
    · exact hticks rfl (h.insertJob now message delaySeconds)
  | delete d =>
    obtain rfl | rfl := hserved.2.cases
    · exact hsame
    · exact hticks rfl (h.delete d)
  | beginClaim now eligible =>
    obtain ⟨_, rfl⟩ | ⟨_, rfl⟩ := hserved
    · exact h.beginClaim now eligible
    · exact hsame
  | scan token =>
    obtain ⟨_, rfl⟩ | ⟨_, rfl⟩ := hserved
    · exact hticks rfl (h.stepClaim fun _ => h.scan)
    · exact hticks rfl (h.endClaim token)
  | lockNext token =>
    obtain ⟨_, rfl⟩ | ⟨_, rfl⟩ := hserved
    · exact hticks rfl (h.stepClaim fun _ => h.lockNext)
    · exact hticks rfl (h.endClaim token)
  | commitClaim token =>
    obtain rfl | rfl := hserved.cases
    · exact hticks rfl (h.endClaim token)
    · have hclock : (db.commitClaim token).2.clock = db.clock := by
        obtain hnone | ⟨_, _, _, _, hcommit⟩ := commitClaim_cases db token
        · rw [hnone]
          rfl
        · rw [hcommit]
          rfl
      exact hticks hclock (h.commitClaim hapart)
  | endConsume job start =>
    obtain rfl : served = _ := hserved
    split_ifs
    · exact { hsame with }
    · exact hsame
  | selectFirst wanted =>
    obtain ⟨rfl, _⟩ := hserved
    exact hsame
  | selectAll wanted =>
    obtain ⟨rfl, _⟩ := hserved
    exact hsame
  | beginEnqueue =>
    obtain ⟨_, rfl⟩ := hserved
    exact hsame
  | startConsume job =>
    obtain ⟨_, rfl⟩ := hserved
    exact hsame
  | _ =>
    obtain rfl : served = db := hserved
    exact hsame

end Steps

/-! ## Runs -/

section Runs

variable {ι α : Type} [DecidableEq ι] {reader : JobReader P} {pool pool' : ι → Prog (PgReply P) α}
  {trace : List (ι × Event (PgReply P))} {db : PgDb P}

/-- **One job of a key runs at a time**, in every run of any programs that keeps keys apart. -/
theorem one_running (h : Interleaves (apartAnswers reader) pool emptyPgDb trace pool' db)
    (key : String) :
    (db.rows.filter (isRunning key)).length ≤ 1 := by
  have hsound : ClaimsSound db :=
    h.evolves.induction claimsSound_emptyPgDb fun _ _ _ _ hsound hanswer => hsound.step hanswer
  have hnodup : ((db.rows.filter (isRunning key)).map (·.id)).Nodup :=
    hsound.ids.sublist (filter_sublist.map _)
  have hone : ∀ a ∈ db.rows.filter (isRunning key), ∀ b ∈ db.rows.filter (isRunning key),
      a.id = b.id := by
    intro a ha b hb
    rw [mem_filter] at ha hb
    exact hsound.one key a ha.1 b hb.1 ha.2 hb.2
  match db.rows.filter (isRunning key), hnodup, hone with
  | [], _, _ => exact Nat.zero_le _
  | [_], _, _ => exact le_rfl
  | a :: b :: _, hnodup, hone =>
    have hsame : a.id = b.id := hone a mem_cons_self b (mem_cons_of_mem _ mem_cons_self)
    exact absurd (mem_cons.2 (Or.inl hsame)) (nodup_cons.1 hnodup).1

end Runs

/-! ## Two workers -/

def sampleSetting : PgSetting := ⟨5, 0, 60000, fun _ => false⟩

/-- Two messages of one key, and three workers. -/
def workerPool (n : ℕ) : Prog (PgReply Payload) (Except String Unit × Unit) :=
  if n = 0 ∨ n = 2 then enqueue (queueReader asciiKeyRuntime) (backfillJob "o/a") 0 ()
  else processOne (queueReader asciiKeyRuntime) sampleSetting ()

/-- The first job fails while the second message is queued, so that two jobs of one key are
pending. -/
def twoPending : List (ℕ × Except String Unit) :=
  ([0, 0, 0, 1, 1, 1, 1, 1, 1, 1, 1, 1, 1, 1, 1, 1, 2, 2, 2, 1, 1, 1].map (·, .error "failed"))

/-- **Two jobs of one key run**: the fourth worker begins its claim before the third one ends its
own. -/
theorem one_running_overlapped :
    ∃ trace pool db,
      Interleaves (PgDb.answers (queueReader asciiKeyRuntime)) workerPool emptyPgDb trace pool db ∧
      (db.rows.filter (isRunning "backfill-pr-details:o/a:default:start")).length = 2 := by
  have hplay : (play (fun outcome db => db.playCall (queueReader asciiKeyRuntime) outcome)
      (twoPending ++ [3, 3, 3, 3, 3, 3, 3, 4, 4, 4, 4, 4, 4, 4, 3, 4, 3, 3, 3, 3, 3, 4, 4, 4, 4,
        4].map (·, .ok ()))
      workerPool emptyPgDb).any (fun (_, _, db) =>
        (db.rows.filter (isRunning "backfill-pr-details:o/a:default:start")).length == 2) =
          true := by
    decide +kernel
  obtain ⟨⟨trace, pool, db⟩, hout, hcheck⟩ := (Option.any_eq_true _ _).1 hplay
  exact ⟨trace, pool, db, interleaves_of_play (fun _ _ _ _ _ => answers_of_playCall) hout,
    eq_of_beq hcheck⟩

instance {P : Type} (reader : JobReader P) (db : PgDb P) (call : PgCall P) :
    Decidable (db.KeysApart reader call) :=
  decidable_of_iff
    ((∀ token ∈ call.commits?, ∀ claim ∈ db.statement token, ∀ row ∈ db.chosenRow claim,
      ∀ key ∈ row.jobKey,
      key ∉ claim.overlapped) ∧
    ∀ superseding ∈ call.supersedes?, ∀ row ∈ db.rows, row.id = superseding.2 →
      row.status = .processing →
      row.jobKey = reader.jobCoalesceKey superseding.1)
    (and_congr_right fun _ => ⟨fun h message id hcall => h (message, id) hcall,
      fun h _ hcall => h _ _ hcall⟩)

/-- The fourth worker begins its claim when the third one has ended its own, and finds no row to
claim. -/
theorem one_running_apart :
    ∃ trace pool db,
      Interleaves (apartAnswers (queueReader asciiKeyRuntime)) workerPool emptyPgDb trace pool db ∧
      (db.rows.filter fun row => row.status == .pending).length = 1 ∧
      (db.rows.filter (isRunning "backfill-pr-details:o/a:default:start")).length ≤ 1 := by
  have hplay : (play (fun outcome db call => if db.KeysApart (queueReader asciiKeyRuntime) call then
        db.playCall (queueReader asciiKeyRuntime) outcome call else none)
      (twoPending ++ [3, 3, 3, 3, 3, 3, 3, 3, 3, 3, 3, 3, 3, 4, 4, 4, 4, 4, 4, 4, 4, 4, 4,
        4].map (·, .ok ()))
      workerPool emptyPgDb).any (fun (_, _, db) =>
        (db.rows.filter fun row => row.status == .pending).length == 1) = true := by
    decide +kernel
  obtain ⟨⟨trace, pool, db⟩, hout, hcheck⟩ := (Option.any_eq_true _ _).1 hplay
  have hrun : Interleaves (apartAnswers (queueReader asciiKeyRuntime)) workerPool emptyPgDb trace
      pool db := by
    apply interleaves_of_play _ hout
    intro outcome db call reply after hreply
    split_ifs at hreply with hapart
    exact ⟨hapart, answers_of_playCall hreply⟩
  exact ⟨trace, pool, db, hrun, eq_of_beq hcheck, one_running hrun _⟩

end LoopOver.Postgres
