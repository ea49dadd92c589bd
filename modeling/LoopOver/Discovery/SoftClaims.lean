import LoopOver.Foundations.Record
import Mathlib.Algebra.Order.Field.Rat
import Mathlib.Data.List.Induction
import Mathlib.Tactic.NormNum

/-!
# Soft claims

A miner announces to the discovery index which issue it works on, so that others pick another one.
The store of these claims, `packages/discovery-index/src/soft-claim.ts`, is a cache with a time to
live (`cache.ts`): an entry goes when it has expired, and the oldest one goes when the cache is
full.

* `TtlCache` has the operations of the cache, on a map that keeps the order of its keys.
* `claims_bounded` is what every run of requests keeps: one entry for each key, and no more than the
  cap.
* **`soft_claim_exclusive`**: an accepted claim is told to everybody who claims the same issue after
  it, with its true age, as long as nobody releases it, the claims for it keep coming in time, and
  no new key finds the cache full.
-/

namespace LoopOver.Discovery

open Record (keys)
open List

/-! ## The cache -/

structure Entry (V : Type) where
  value : V
  expiresAt : ℚ

namespace TtlCache

variable {V : Type}

def delete (key : String) (store : List (String × Entry V)) : List (String × Entry V) :=
  store.filter fun entry => entry.1 ≠ key

/-- An entry that has expired is dropped when it is read. -/
def get (now : ℚ) (key : String) (store : List (String × Entry V)) :
    Option V × List (String × Entry V) :=
  match store.lookup key with
  | none => (none, store)
  | some entry =>
    if entry.expiresAt ≤ now then (none, delete key store) else (some entry.value, store)

/-- Room for one more key: when the cache is full, what has expired goes, and then the oldest
entries. -/
def evictForCapacity (now : ℚ) (maxEntries : ℕ) (store : List (String × Entry V)) :
    List (String × Entry V) :=
  if store.length < maxEntries then store
  else
    let live := store.filter fun entry => now < entry.2.expiresAt
    live.drop (live.length + 1 - maxEntries)

def set (evictNow now : ℚ) (maxEntries : ℕ) (key : String) (value : V) (ttlMs : ℚ)
    (store : List (String × Entry V)) :
    List (String × Entry V) :=
  Record.set key ⟨value, now + max 0 ttlMs⟩
    (if key ∈ keys store then store else evictForCapacity evictNow maxEntries store)

end TtlCache

/-! ## The store -/

/-- A claim as it is stored. -/
structure SoftClaimRecord where
  claimedAt : ℚ

structure SoftClaimOutcome where
  accepted : Bool
  /-- The age of the claim that is held already. -/
  ageMs : Option ℚ

abbrev SoftClaims := List (String × Entry SoftClaimRecord)

/-- The cap of the cache and the time to live of a claim. -/
structure StoreSetting where
  maxEntries : ℕ
  ttlMs : ℚ

/-- The readings of the clock for a claim: those of `get`, of `evictForCapacity` and `set`, and that
of the store. -/
structure Readings where
  get : ℚ
  evict : ℚ
  set : ℚ
  now : ℚ

variable (setting : StoreSetting)

/-- A claim that is held is refreshed, but keeps its date. -/
def claim (clock : Readings) (key : String) (store : SoftClaims) : SoftClaimOutcome × SoftClaims :=
  match TtlCache.get clock.get key store with
  | (some existing, store) =>
    (⟨false, some (clock.now - existing.claimedAt)⟩,
      TtlCache.set clock.evict clock.set setting.maxEntries key existing setting.ttlMs store)
  | (none, store) =>
    (⟨true, none⟩,
      TtlCache.set clock.evict clock.set setting.maxEntries key ⟨clock.now⟩ setting.ttlMs store)

def release (key : String) (store : SoftClaims) : SoftClaims := TtlCache.delete key store

/-- What a miner asks of the cache. -/
inductive SoftClaimAction
  | claim
  | release
  deriving DecidableEq

/-- A request that was parsed, with the clock of the server. -/
structure SoftClaimCall where
  clock : Readings
  key : String
  action : SoftClaimAction

def serve (store : SoftClaims) (call : SoftClaimCall) : SoftClaims :=
  match call.action with
  | .claim => (claim setting call.clock call.key store).2
  | .release => release call.key store

def serveAll (calls : List SoftClaimCall) : SoftClaims := calls.foldl (serve setting) []

/-- No claim comes for a new key while the cache is full. -/
def Roomy (store : SoftClaims) : List SoftClaimCall → Prop
  | [] => True
  | call :: rest =>
    (call.action = .claim → call.key ∈ keys store ∨ store.length < setting.maxEntries) ∧
      Roomy (serve setting store call) rest

/-- Every claim for the key comes before the last one has expired. -/
def InTime (key : String) (since : ℚ) : List SoftClaimCall → Prop
  | [] => True
  | call :: rest =>
    if call.key = key then call.clock.get < since + max 0 setting.ttlMs ∧
      InTime key call.clock.set rest
    else InTime key since rest

variable {setting} {key other : String} {now : ℚ} {clock : Readings} {store : SoftClaims}
  {entry : Entry SoftClaimRecord}

/-! ## Every run -/

theorem length_set {κ α : Type} [DecidableEq κ] (key : κ) (value : α) (record : List (κ × α)) :
    (Record.set key value record).length = if key ∈ keys record then record.length
      else record.length + 1 := by
  have hkeys := congrArg List.length (Record.keys_set key value record)
  rw [Record.keys, length_map] at hkeys
  rw [hkeys]
  split_ifs <;> simp [Record.keys]

/-- One entry for each key, and no more than the cap. -/
structure Bounded (setting : StoreSetting) (store : SoftClaims) : Prop where
  nodup : (keys store).Nodup
  length : store.length ≤ max 1 setting.maxEntries

theorem Bounded.of_sublist {store' : SoftClaims} (h : Bounded setting store)
    (hsublist : store'.Sublist store) :
    Bounded setting store' :=
  ⟨h.nodup.sublist (hsublist.map _), hsublist.length_le.trans h.length⟩

theorem Bounded.set {evictNow : ℚ} {value : SoftClaimRecord} (h : Bounded setting store) :
    Bounded setting (TtlCache.set evictNow now setting.maxEntries key value setting.ttlMs
      store) := by
  unfold TtlCache.set
  split_ifs with hmem
  · exact ⟨Record.nodup_keys_set h.nodup, by rw [length_set, if_pos hmem]; exact h.length⟩
  · have hroom : (TtlCache.evictForCapacity evictNow setting.maxEntries store).Sublist store ∧
        (TtlCache.evictForCapacity evictNow setting.maxEntries store).length + 1 ≤
          max 1 setting.maxEntries := by
      unfold TtlCache.evictForCapacity
      split_ifs with hless
      · exact ⟨List.Sublist.refl _, by omega⟩
      · refine ⟨(drop_sublist _ _).trans filter_sublist, ?_⟩
        rw [length_drop]
        omega
    refine ⟨Record.nodup_keys_set (h.nodup.sublist (hroom.1.map _)), ?_⟩
    rw [length_set]
    split_ifs <;> omega

theorem get_sublist (now : ℚ) (key : String) (store : SoftClaims) :
    (TtlCache.get now key store).2.Sublist store := by
  unfold TtlCache.get
  split
  · exact List.Sublist.refl _
  · split_ifs
    · exact filter_sublist
    · exact List.Sublist.refl _

theorem claim_eq (clock : Readings) (key : String) (store : SoftClaims) : ∃ value : SoftClaimRecord,
    (claim setting clock key store).2 = TtlCache.set clock.evict clock.set setting.maxEntries key
      value setting.ttlMs
      (TtlCache.get clock.get key store).2 := by
  unfold claim
  split
  · next existing rest hget => exact ⟨existing, by rw [hget]⟩
  · next rest hget => exact ⟨⟨clock.now⟩, by rw [hget]⟩

theorem Bounded.serve (h : Bounded setting store) (call : SoftClaimCall) :
    Bounded setting (serve setting store call) := by
  unfold Discovery.serve
  split
  · obtain ⟨value, hclaim⟩ := @claim_eq setting call.clock call.key store
    rw [hclaim]
    exact (h.of_sublist (get_sublist _ _ _)).set
  · exact h.of_sublist filter_sublist

/-- What every run of requests keeps. -/
theorem claims_bounded (setting : StoreSetting) (calls : List SoftClaimCall) :
    Bounded setting (serveAll setting calls) := by
  induction calls using List.reverseRecOn with
  | nil => exact ⟨nodup_nil, Nat.zero_le _⟩
  | append_singleton calls call ih =>
    rw [serveAll, foldl_concat]
    exact ih.serve call

/-! ## A claim that is held -/

theorem lookup_delete_of_ne (hne : other ≠ key) (store : SoftClaims) :
    (TtlCache.delete key store).lookup other = store.lookup other := by
  induction store with
  | nil => rfl
  | cons first rest ih =>
    rw [TtlCache.delete, filter_cons]
    split_ifs with hkept
    · rw [Record.lookup_cons_eq, Record.lookup_cons_eq, ← ih]
      rfl
    · have hkey : first.1 = key := by simpa using hkept
      rw [Record.lookup_cons_eq, if_neg (hkey ▸ hne)]
      exact ih

theorem lookup_get_of_ne (hne : other ≠ key) :
    (TtlCache.get now key store).2.lookup other = store.lookup other := by
  unfold TtlCache.get
  split
  · rfl
  · split_ifs
    · exact lookup_delete_of_ne hne store
    · rfl

/-- A key that has expired leaves room for itself. -/
theorem get_of_mem (hmem : key ∈ keys store) (hgone : key ∉ keys (TtlCache.get now key store).2) :
    (TtlCache.get now key store).2.length < store.length := by
  refine lt_of_le_of_ne (get_sublist now key store).length_le fun hlength => hgone ?_
  rwa [(get_sublist now key store).eq_of_length hlength]

/-- A claim for another key does not touch the entry, if it finds room. -/
theorem claim_of_ne (hne : other ≠ key) (h : Bounded setting store)
    (hheld : store.lookup other = some entry)
    (hroom : key ∈ keys store ∨ store.length < setting.maxEntries) :
    (claim setting clock key store).2.lookup other = some entry := by
  obtain ⟨value, hclaim⟩ := @claim_eq setting clock key store
  have hkept : (TtlCache.get clock.get key store).2.lookup other = some entry :=
    (lookup_get_of_ne hne).trans hheld
  rw [hclaim, TtlCache.set, Record.lookup_set, if_neg hne]
  split_ifs with hmem
  · exact hkept
  · have hless : (TtlCache.get clock.get key store).2.length < setting.maxEntries := by
      rcases hroom with hpresent | hless
      · -- the expired entry of the key is gone, and the other one is still there
        have hshorter := get_of_mem hpresent hmem
        have hpos := length_pos_of_mem (Record.mem_of_lookup hkept)
        have hlength := h.length
        omega
      · exact (get_sublist clock.get key store).length_le.trans_lt hless
    rw [TtlCache.evictForCapacity, if_pos hless, hkept]

/-- A claim for a key that is held is refused, and puts off its end. -/
theorem claim_of_held (hheld : store.lookup key = some entry)
    (hlive : clock.get < entry.expiresAt) :
    (claim setting clock key store).1 = ⟨false, some (clock.now - entry.value.claimedAt)⟩ ∧
      (claim setting clock key store).2.lookup key =
        some ⟨entry.value, clock.set + max 0 setting.ttlMs⟩ := by
  have hget : TtlCache.get clock.get key store = (some entry.value, store) := by
    unfold TtlCache.get
    rw [hheld]
    exact if_neg (not_le.2 hlive)
  unfold claim
  rw [hget]
  refine ⟨rfl, ?_⟩
  dsimp only
  rw [TtlCache.set, Record.lookup_set, if_pos rfl]

theorem claim_of_held_after {calls : List SoftClaimCall} {last : SoftClaimCall}
    {value : SoftClaimRecord} {since : ℚ} (h : Bounded setting store)
    (hheld : store.lookup last.key = some ⟨value, since + max 0 setting.ttlMs⟩)
    (hclaims : ∀ call ∈ calls, call.key = last.key → call.action = .claim)
    (hroomy : Roomy setting store calls)
    (hintime : InTime setting last.key since (calls ++ [last])) :
    (claim setting last.clock last.key (calls.foldl (serve setting) store)).1 =
      ⟨false, some (last.clock.now - value.claimedAt)⟩ := by
  induction calls generalizing store since with
  | nil =>
    rw [nil_append, InTime, if_pos rfl] at hintime
    exact (claim_of_held hheld hintime.1).1
  | cons call calls ih =>
    obtain ⟨hroom, hroomy⟩ := hroomy
    have hrest := fun other hother => hclaims other (mem_cons_of_mem call hother)
    rw [cons_append, InTime] at hintime
    rw [foldl_cons]
    split_ifs at hintime with hkey
    · have hserve : serve setting store call = (claim setting call.clock last.key store).2 := by
        rw [serve, hclaims call mem_cons_self hkey, hkey]
      refine ih (h.serve call) ?_ hrest hroomy hintime.2
      rw [hserve]
      exact (claim_of_held hheld hintime.1).2
    · refine ih (h.serve call) ?_ hrest hroomy hintime
      rw [serve]
      split
      · next hclaim => exact claim_of_ne (Ne.symm hkey) h hheld (hroom hclaim)
      · rw [release, lookup_delete_of_ne (Ne.symm hkey), hheld]

/-- **A soft claim is exclusive** until it is released, has expired, or is forgotten by a full
cache: whoever claims the same key is refused and told the age of the claim that was accepted,
however often it was refreshed. -/
theorem soft_claim_exclusive (setting : StoreSetting) (before between : List SoftClaimCall)
    (first last : SoftClaimCall) (hfirst : first.action = .claim) (hkey : last.key = first.key)
    (haccepted : (claim setting first.clock first.key (serveAll setting before)).1.accepted = true)
    (hclaims : ∀ call ∈ between, call.key = first.key → call.action = .claim)
    (hroomy : Roomy setting (serveAll setting (before ++ [first])) between)
    (hintime : InTime setting first.key first.clock.set (between ++ [last])) :
    (claim setting last.clock last.key (serveAll setting (before ++ first :: between))).1 =
      ⟨false, some (last.clock.now - first.clock.now)⟩ := by
  have hserve : serveAll setting (before ++ [first]) =
      (claim setting first.clock first.key (serveAll setting before)).2 := by
    rw [serveAll, foldl_concat, ← serveAll, serve, hfirst]
  have hheld : (serveAll setting (before ++ [first])).lookup last.key =
      some ⟨⟨first.clock.now⟩, first.clock.set + max 0 setting.ttlMs⟩ := by
    rw [hserve, hkey]
    unfold claim at haccepted ⊢
    split at haccepted
    · cases haccepted
    · rw [TtlCache.set, Record.lookup_set, if_pos rfl]
  rw [← hkey] at hclaims hintime
  have hstate : serveAll setting (before ++ first :: between) =
      between.foldl (serve setting) (serveAll setting (before ++ [first])) := by
    rw [serveAll, serveAll, ← foldl_append, append_assoc, singleton_append]
  rw [hstate]
  exact claim_of_held_after (claims_bounded setting _) hheld hclaims hroomy hintime

/-- All readings of a claim are the same. -/
def singleReading (now : ℚ) : Readings := ⟨now, now, now, now⟩

/-- Two miners and one issue, with a claim for another issue in between. -/
theorem soft_claim_exclusive_two :
    (claim ⟨2, 1800000⟩ (singleReading 900) "acme/widgets#7" (serveAll ⟨2, 1800000⟩
      [⟨singleReading 0, "acme/widgets#7", .claim⟩,
        ⟨singleReading 500, "acme/widgets#8", .claim⟩])).1 =
      ⟨false, some (900 - 0)⟩ :=
  soft_claim_exclusive ⟨2, 1800000⟩ [] [⟨singleReading 500, "acme/widgets#8", .claim⟩]
    ⟨singleReading 0, "acme/widgets#7", .claim⟩ ⟨singleReading 900, "acme/widgets#7",
      .claim⟩ rfl rfl (by decide +kernel)
    (by decide) ⟨fun _ => Or.inr (by decide +kernel),
      trivial⟩ (by simp [InTime, singleReading]; norm_num)

end LoopOver.Discovery
