import Mathlib.Algebra.Order.Group.Defs
import Mathlib.Algebra.Order.Monoid.Defs
import Mathlib.Algebra.Order.Sub.Basic
import Mathlib.Data.List.Basic

/-!
# Buckets that count events in windows

A bucket counts the events since its window began. An event after the end of the window begins a new
one, at its own time. Times are in an ordered group, and the events of a bucket may come from
several sources with a limit each; they have the length of the window in common.

* `Counts` is what a bucket knows of the events it counted, and `counts_record` its step.
* `Within start` says of one window, the current or an earlier one, that no source is over its limit
  in it. `Counts.within` has it of the current window, and `within_record` keeps it.
-/

namespace LoopOver.Window

open List

variable {τ ι : Type*}

structure Bucket (τ : Type*) where
  count : ℕ
  start : τ

section Definitions

variable [AddCommGroup τ] [LinearOrder τ]

/-- The bucket as it counts now: with nothing in it once its window is over. -/
def current (length now : τ) : Option (Bucket τ) → Bucket τ
  | none => ⟨0, now⟩
  | some bucket => if length ≤ now - bucket.start then ⟨0, now⟩ else bucket

/-- Count an event. -/
def record (length now : τ) (bucket : Option (Bucket τ)) : Bucket τ :=
  ⟨(current length now bucket).count + 1, (current length now bucket).start⟩

/-- The events of a window, which is open at its end. -/
def inWindow (start length : τ) (events : List (ι × τ)) : List (ι × τ) :=
  events.filter fun event => start ≤ event.2 ∧ event.2 < start + length

/-- The events of a source. -/
def ofSource [DecidableEq ι] (source : ι) (events : List (ι × τ)) : List (ι × τ) :=
  events.filter fun event => event.1 = source

/-- No source is over its limit in the window that began at `start`, and that window is the current
one or over. -/
structure Within [DecidableEq ι] (start length : τ) (limit : ι → ℕ) (bucket : Option (Bucket τ))
    (events : List (ι × τ)) : Prop where
  bounded : ∀ source, (ofSource source (inWindow start length events)).length ≤ limit source
  started : ∃ b ∈ bucket, b.start = start ∨ start + length ≤ b.start

/-- What a bucket knows of the events it counted until now. -/
structure Counts [DecidableEq ι] (length : τ) (limit : ι → ℕ) (bucket : Option (Bucket τ))
    (events : List (ι × τ)) (now : τ) : Prop where
  fresh : bucket = none → events = []
  past : ∀ event ∈ events, event.2 ≤ now
  started : ∀ b ∈ bucket, b.start ≤ now
  covered : 0 < length → ∀ b ∈ bucket, ∀ event ∈ events, event.2 < b.start + length
  counted : ∀ b ∈ bucket, (inWindow b.start length events).length ≤ b.count
  bounded : ∀ b ∈ bucket, ∀ source,
    (ofSource source (inWindow b.start length events)).length ≤ limit source

end Definitions

section Sources

variable [DecidableEq ι] {limit : ι → ℕ} {source : ι}

theorem ofSource_length_le (source : ι) (events : List (ι × τ)) :
    (ofSource source events).length ≤ events.length :=
  length_filter_le _ _

/-- One more event of a source is one more for that source only. -/
theorem ofSource_concat_le {events : List (ι × τ)}
    (hbounded : ∀ source, (ofSource source events).length ≤ limit source)
    (hless : events.length < limit source) (other : ι) (now : τ) :
    (ofSource other (events ++ [(source, now)])).length ≤ limit other := by
  rw [ofSource, filter_append, length_append]
  by_cases hsame : source = other
  · have hle := ofSource_length_le source events
    rw [ofSource] at hle
    have hone : ([(source, now)].filter fun event => event.1 = source).length = 1 := by simp
    rw [← hsame, hone]
    omega
  · have hnone : ([(source, now)].filter fun event => event.1 = other).length = 0 := by simp [hsame]
    rw [hnone]
    exact hbounded other

end Sources

section Events

variable [AddCommGroup τ] [LinearOrder τ] {length now start : τ}

theorem inWindow_concat (start length : τ) (events : List (ι × τ)) (source : ι) (now : τ) :
    inWindow start length (events ++ [(source, now)]) =
      inWindow start length events ++ if start ≤ now ∧ now < start + length then [(source, now)]
        else [] := by
  rw [inWindow, inWindow, filter_append]
  refine congrArg _ ?_
  split
  · next hin => simp [hin]
  · next hout => simpa using hout

theorem inWindow_concat_of_le (h : start + length ≤ now) (events : List (ι × τ)) (source : ι) :
    inWindow start length (events ++ [(source, now)]) = inWindow start length events := by
  rw [inWindow_concat, if_neg fun hin => absurd hin.2 (not_lt.2 h), append_nil]

/-- A window that begins after all events has none of them. -/
theorem inWindow_eq_nil [IsOrderedAddMonoid τ] {events : List (ι × τ)}
    (h : 0 < length → ∀ event ∈ events, event.2 < start) : inWindow start length events = [] := by
  rw [inWindow, filter_eq_nil_iff]
  intro event hevent hin
  obtain ⟨hstart, hend⟩ := of_decide_eq_true hin
  have hpos : 0 < length := pos_of_lt_add_right (hstart.trans_lt hend)
  exact absurd hstart (not_le.2 (h hpos event hevent))

end Events

section Counts

variable [AddCommGroup τ] [LinearOrder τ] [DecidableEq ι] {length now now' start : τ}
  {limit : ι → ℕ}
  {bucket : Option (Bucket τ)} {events : List (ι × τ)} {source : ι}

theorem counts_none (length : τ) (limit : ι → ℕ) (now : τ) :
    Counts length limit none [] now where
  fresh _ := rfl
  past _ h := absurd h not_mem_nil
  started _ h := nomatch h
  covered _ _ h := nomatch h
  counted _ h := nomatch h
  bounded _ h := nomatch h

theorem Counts.later (h : Counts length limit bucket events now) (hnow : now ≤ now') :
    Counts length limit bucket events now' :=
  { h with
    past := fun event hevent => (h.past event hevent).trans hnow
    started := fun b hb => (h.started b hb).trans hnow }

variable {b : Bucket τ}

theorem Counts.within (h : Counts length limit bucket events now) (hb : b ∈ bucket) :
    Within b.start length limit bucket events :=
  ⟨h.bounded b hb, b, hb, Or.inl rfl⟩

/-- Until now all events are in the past. -/
theorem past_concat (h : Counts length limit bucket events now) (hnow : now ≤ now') :
    ∀ event ∈ events ++ [(source, now')], event.2 ≤ now' := by
  intro event hevent
  rcases mem_append.1 hevent with hevent | hevent
  · exact (h.past event hevent).trans hnow
  · rw [mem_singleton.1 hevent]

/-- The event joins the current window. -/
theorem counts_join (h : Counts length limit (some b) events now) (hnow : now ≤ now')
    (hopen : now' < b.start + length) (hless : b.count < limit source) :
    Counts length limit (some ⟨b.count + 1, b.start⟩) (events ++ [(source, now')]) now' := by
  have hevents : inWindow b.start length (events ++ [(source, now')]) =
      inWindow b.start length events ++ [(source, now')] := by
    rw [inWindow_concat, if_pos ⟨(h.started b rfl).trans hnow, hopen⟩]
  have hcounted := h.counted b rfl
  refine ⟨nofun, past_concat h hnow, ?_, fun _ => ?_, ?_, ?_⟩
  · rintro _ ⟨⟩
    exact (h.started b rfl).trans hnow
  · rintro _ ⟨⟩ event hevent
    exact (past_concat h hnow event hevent).trans_lt hopen
  · rintro _ ⟨⟩
    rw [hevents, length_append]
    exact Nat.succ_le_succ hcounted
  · rintro _ ⟨⟩ other
    rw [hevents]
    exact ofSource_concat_le (h.bounded b rfl) (by omega) other now'

variable [IsOrderedAddMonoid τ]

/-- An event begins a window, or joins the current one before its end. -/
theorem record_cases (length now : τ) (bucket : Option (Bucket τ)) :
    ((current length now bucket).count = 0 ∧ record length now bucket = ⟨1, now⟩ ∧
        ∀ b ∈ bucket, b.start + length ≤ now) ∨
      ∃ b ∈ bucket, now < b.start + length ∧ current length now bucket = b ∧
        record length now bucket = ⟨b.count + 1, b.start⟩ := by
  cases bucket with
  | none => exact Or.inl ⟨rfl, rfl, fun _ h => nomatch h⟩
  | some b =>
    rw [record, current]
    split
    · next helapsed =>
      refine Or.inl ⟨rfl, rfl, ?_⟩
      rintro _ ⟨⟩
      exact le_sub_iff_add_le'.1 helapsed
    · next hopen =>
        exact Or.inr ⟨b, rfl, not_le.1 fun hle => hopen (le_sub_iff_add_le'.2 hle), rfl, rfl⟩

/-- A bucket that is over has nothing in it. -/
theorem current_count_of_le (h : b.start + length ≤ now) :
    (current length now (some b)).count = 0 := by
  rw [current, if_pos (le_sub_iff_add_le'.2 h)]

/-- Without an event in between a bucket only gets emptier. -/
theorem current_count_anti (length : τ) (bucket : Option (Bucket τ)) (hnow : now ≤ now') :
    (current length now' bucket).count ≤ (current length now bucket).count := by
  cases bucket with
  | none => exact Nat.le_refl _
  | some b =>
    by_cases hover : b.start + length ≤ now'
    · rw [current_count_of_le hover]
      exact Nat.zero_le _
    · have hopen : ¬b.start + length ≤ now := fun hle => hover (hle.trans hnow)
      rw [current, current, if_neg fun hle => hover (le_sub_iff_add_le'.1 hle),
        if_neg fun hle => hopen (le_sub_iff_add_le'.1 hle)]

/-- A new window begins, and no earlier event is in it. -/
theorem counts_new (h : Counts length limit bucket events now) (hnow : now ≤ now')
    (hover : ∀ b ∈ bucket, b.start + length ≤ now') (hless : 0 < limit source) :
    Counts length limit (some ⟨1, now'⟩) (events ++ [(source, now')]) now' := by
  have hpast : ∀ event ∈ events ++ [(source, now')], event.2 ≤ now' := past_concat h hnow
  have hnone : inWindow now' length events = [] := by
    refine inWindow_eq_nil fun hpos event hevent => ?_
    cases bucket with
    | none => exact absurd (h.fresh rfl ▸ hevent) not_mem_nil
    | some b => exact (h.covered hpos b rfl event hevent).trans_le (hover b rfl)
  have hevents : inWindow now' length (events ++ [(source, now')]) =
      [] ++ if now' ≤ now' ∧ now' < now' + length then [(source, now')] else [] := by
    rw [inWindow_concat, hnone]
  refine ⟨nofun, hpast, ?_, fun hpos => ?_, ?_, ?_⟩
  · rintro _ ⟨⟩
    exact le_refl now'
  · rintro _ ⟨⟩ event hevent
    exact (hpast event hevent).trans_lt (lt_add_of_pos_right _ hpos)
  · rintro _ ⟨⟩
    rw [hevents]
    split <;> simp
  · rintro _ ⟨⟩ other
    rw [hevents]
    split
    · have hnothing : ∀ source : ι, (ofSource source ([] : List (ι × τ))).length ≤ limit source :=
        fun _ => Nat.zero_le _
      exact ofSource_concat_le hnothing hless other now'
    · exact Nat.zero_le _

/-- **The step of a bucket.** It counts an event of a source that is under its limit. -/
theorem counts_record (h : Counts length limit bucket events now) (hnow : now ≤ now')
    (hless : (current length now' bucket).count < limit source) :
    Counts length limit (some (record length now' bucket)) (events ++ [(source, now')]) now' := by
  rcases record_cases length now' bucket with ⟨hzero, hrecord, hover⟩ |
    ⟨b, rfl, hopen, hcurrent, hrecord⟩
  · rw [hrecord]
    exact counts_new h hnow hover (hzero ▸ hless)
  · rw [hrecord]
    exact counts_join h hnow hopen (hcurrent ▸ hless)

/-- A window stays within the limits when another event is counted. -/
theorem within_record (h : Counts length limit bucket events now) (hnow : now ≤ now')
    (hless : (current length now' bucket).count < limit source)
    (hwithin : Within start length limit bucket events) :
    Within start length limit (some (record length now' bucket)) (events ++ [(source, now')]) := by
  obtain ⟨b, hb, hstart⟩ := hwithin.started
  have hafter : b.start ≤ now' := (h.started b hb).trans hnow
  -- Once the window is over, the event is not in it.
  have hover : start + length ≤ now' → ∀ other,
      (ofSource other (inWindow start length (events ++ [(source, now')]))).length ≤
        limit other := by
    intro hle other
    rw [inWindow_concat_of_le hle]
    exact hwithin.bounded other
  rcases record_cases length now' bucket with ⟨-, hrecord, hends⟩ | ⟨b', hb', hopen, -, hrecord⟩
  · have hle : start + length ≤ now' := by
      rcases hstart with rfl | hle
      · exact hends b hb
      · exact hle.trans hafter
    exact ⟨hover hle, _, rfl, Or.inr (by rw [hrecord]; exact hle)⟩
  · obtain rfl : b = b' := Option.some.inj (hb.symm.trans hb')
    rcases hstart with rfl | hle
    · have hcounts := (counts_record h hnow hless).bounded _ rfl
      rw [hrecord] at hcounts
      exact ⟨hcounts, _, rfl, Or.inl (by rw [hrecord])⟩
    · exact ⟨hover (hle.trans hafter), _, rfl, Or.inr (by rw [hrecord]; exact hle)⟩

end Counts

end LoopOver.Window
