import LoopOver.Portfolio.Store

/-!
# Composite ids of portfolio items

The selection of the engine knows an item by one text. `queueItemId` of
`packages/loopover-miner/lib/portfolio-queue-manager.ts` joins the key of a row with `::`, and
`parseQueueItemId` takes the text apart again, from its end.

* `lastIndexOf_separated`: a text without the separator that does not start with half of one is
  found behind the last separator.
* **`parseQueueItemId_queueItemId`**: the key comes back exactly when its identifier does not start
  with a colon; what comes back instead is no key that the store accepts (`parseQueueItemId_colon`).
* `queueItemId_injective`: two keys that the store accepts never have the same id.
-/

namespace LoopOver.Portfolio

open List

/-- `String.prototype.lastIndexOf` of a text that is not empty. -/
def lastIndexOf (pattern : List Char) : List Char → Option ℕ
  | [] => none
  | c :: rest =>
    match lastIndexOf pattern rest with
    | some index => some (index + 1)
    | none => if pattern.isPrefixOf (c :: rest) then some 0 else none

/-- `ITEM_ID_SEPARATOR`. -/
def itemIdSeparator : List Char := [':', ':']

def queueItemId (key : QueueKey) : String :=
  String.ofList (key.apiBaseUrl.toList ++ itemIdSeparator ++ key.repoFullName.toList ++
    itemIdSeparator ++
    key.identifier.toList)

/-- What stands before the last separator and behind it; a separator at the start is none. -/
def cutLast (text : List Char) : Option (List Char × List Char) :=
  match lastIndexOf itemIdSeparator text with
  | none => none
  | some index =>
    if index = 0 then none else some (text.take index, text.drop (index + itemIdSeparator.length))

/-- Places are counted in characters; the source counts UTF-16 units, and takes the same parts. -/
def parseQueueItemId (id : String) : Except String QueueKey :=
  match cutLast id.toList with
  | none => .error "invalid_queue_item_id"
  | some (beforeIdentifier, identifier) =>
    if identifier = [] then .error "invalid_queue_item_id"
    else
      match cutLast beforeIdentifier with
      | none => .error "invalid_queue_item_id"
      | some (apiBaseUrl, repoFullName) =>
        if repoFullName = [] ∨ apiBaseUrl = [] then .error "invalid_queue_item_id"
        else .ok ⟨String.ofList apiBaseUrl, String.ofList repoFullName, String.ofList identifier⟩

/-! ## Taking an id apart -/

section Ids

variable {key key' : QueueKey} {front front' back back' : List Char}

/-- A text in which the separator neither occurs nor arises by putting a colon before it. -/
structure Separable (text : List Char) : Prop where
  no_separator : ¬itemIdSeparator <:+: text
  no_colon : text.head? ≠ some ':'

variable {text : List Char}

theorem lastIndexOf_eq_none (h : ¬itemIdSeparator <:+: text) :
    lastIndexOf itemIdSeparator text = none := by
  induction text with
  | nil => rfl
  | cons c rest ih =>
    rw [infix_cons_iff, not_or] at h
    rw [lastIndexOf, ih h.2]
    exact if_neg fun hstart => h.1 (List.isPrefixOf_iff_prefix.1 hstart)

theorem lastIndexOf_separated (front : List Char) (h : Separable back) :
    lastIndexOf itemIdSeparator (front ++ itemIdSeparator ++ back) = some front.length := by
  induction front with
  | nil =>
    have hrest : ¬itemIdSeparator <:+: ':' :: back := by
      rw [infix_cons_iff, not_or]
      refine ⟨fun hstart => h.no_colon ?_, h.no_separator⟩
      obtain ⟨tail, htail⟩ := hstart
      have hback := (List.cons.inj htail).2
      rw [← hback]
      rfl
    show lastIndexOf itemIdSeparator (':' :: ':' :: back) = some 0
    rw [lastIndexOf, lastIndexOf_eq_none hrest]
    rfl
  | cons c front ih =>
    rw [cons_append, cons_append, lastIndexOf, ih]
    rfl

theorem cutLast_separated (hne : front ≠ []) (h : Separable back) :
    cutLast (front ++ itemIdSeparator ++ back) = some (front, back) := by
  rw [cutLast, lastIndexOf_separated front h]
  show (if front.length = 0 then none else _) = _
  rw [if_neg (by simpa using hne), ← length_append, drop_left, append_assoc, take_left]

/-- What is behind the last separator, and what is before it. -/
theorem separated_inj (h : Separable back) (h' : Separable back')
    (heq : front ++ itemIdSeparator ++ back = front' ++ itemIdSeparator ++ back') :
    front = front' ∧ back = back' := by
  have hindex := lastIndexOf_separated front h
  rw [heq, lastIndexOf_separated front' h', Option.some.injEq] at hindex
  rw [append_assoc, append_assoc] at heq
  obtain ⟨hfront, hrest⟩ := append_inj heq hindex.symm
  exact ⟨hfront, append_cancel_left hrest⟩

theorem separable_of_no_colon (h : ':' ∉ text) : Separable text := by
  refine ⟨fun hpart => h (hpart.subset (by decide)), fun hhead => h (mem_of_mem_head? hhead)⟩

/-- Half a separator behind a text without colons makes none. -/
theorem separable_concat_colon (hne : text ≠ []) (h : ':' ∉ text) : Separable (text ++ [':']) := by
  refine ⟨fun hpart => ?_, fun hhead => ?_⟩
  · have hcount := hpart.sublist.count_le ':'
    rw [count_append, count_eq_zero_of_not_mem h] at hcount
    exact absurd hcount (by decide)
  · rw [List.head?_append_of_ne_nil _ hne] at hhead
    exact h (mem_of_mem_head? hhead)

theorem AcceptedKey.separable (h : AcceptedKey key)
    (hcolon : key.identifier.toList.head? ≠ some ':') :
    Separable key.identifier.toList :=
  ⟨h.identifier_separate, hcolon⟩

theorem toList_ne_nil {text : String} (h : text ≠ "") : text.toList ≠ [] := by
  intro hnil
  exact h (String.toList_inj.1 hnil)

/-- The id of a key whose identifier starts with a colon, cut where it is parsed. -/
theorem queueItemId_colon {rest : List Char} (hidentifier : key.identifier.toList = ':' :: rest) :
    (queueItemId key).toList = key.apiBaseUrl.toList ++ itemIdSeparator ++
      (key.repoFullName.toList ++ [':']) ++
      itemIdSeparator ++ rest := by
  rw [queueItemId, String.toList_ofList, hidentifier]
  simp [itemIdSeparator]

theorem separable_of_colon (h : AcceptedKey key) {rest : List Char}
    (hidentifier : key.identifier.toList = ':' :: rest) : Separable rest := by
  have hseparate := h.identifier_separate
  rw [hidentifier] at hseparate
  refine ⟨fun hpart => hseparate ?_, fun hhead => hseparate ?_⟩
  · exact hpart.trans (suffix_cons _ _).isInfix
  · obtain ⟨tail, rfl⟩ := List.head?_eq_some_iff.1 hhead
    exact ⟨[], tail, rfl⟩

/-- What parsing makes of two parts that can be told apart. -/
theorem parse_separated {apiBaseUrl repoFullName identifier : List Char} (hapi : apiBaseUrl ≠ [])
    (hrepo : Separable repoFullName) (hrepo' : repoFullName ≠ [])
    (hidentifier : Separable identifier) :
    parseQueueItemId (String.ofList (apiBaseUrl ++ itemIdSeparator ++ repoFullName ++
      itemIdSeparator ++ identifier)) =
      if identifier = [] then .error "invalid_queue_item_id"
      else .ok ⟨String.ofList apiBaseUrl, String.ofList repoFullName,
        String.ofList identifier⟩ := by
  have hfront : apiBaseUrl ++ itemIdSeparator ++ repoFullName ≠ [] := by simp [hapi]
  have hlast := cutLast_separated hfront hidentifier
  rw [parseQueueItemId, String.toList_ofList, hlast]
  show (if identifier = [] then _ else _) = _
  rw [cutLast_separated hapi hrepo]
  show (if identifier = [] then _ else if repoFullName = [] ∨ apiBaseUrl = [] then _ else _) = _
  rw [if_neg (c := repoFullName = [] ∨ apiBaseUrl = []) (not_or.2 ⟨hrepo', hapi⟩)]

theorem parse_of_separable (h : AcceptedKey key) (hcolon : key.identifier.toList.head? ≠ some ':') :
    parseQueueItemId (queueItemId key) = .ok key := by
  have hparse :=
    parse_separated (toList_ne_nil h.apiBaseUrl_ne) (separable_of_no_colon h.repoFullName.no_colon)
    h.repoFullName.ne_nil (h.separable hcolon)
  rw [if_neg (toList_ne_nil h.identifier_ne)] at hparse
  rw [queueItemId, hparse, String.ofList_toList, String.ofList_toList, String.ofList_toList]

/-- **A colon at the start of the identifier goes to the repository**: what comes back is no key at
all, or one that the store does not accept. -/
theorem parseQueueItemId_colon (h : AcceptedKey key)
    (hcolon : key.identifier.toList.head? = some ':') :
    ∀ parsed, parseQueueItemId (queueItemId key) = .ok parsed →
      ∃ e, normalizeKey parsed.target = .error e := by
  obtain ⟨rest, hrest⟩ := List.head?_eq_some_iff.1 hcolon
  intro parsed hparsed
  have hparse := parse_separated (toList_ne_nil h.apiBaseUrl_ne)
    (separable_concat_colon h.repoFullName.ne_nil h.repoFullName.no_colon) (by simp)
      (separable_of_colon h hrest)
  rw [← queueItemId_colon hrest, String.ofList_toList, hparsed] at hparse
  split at hparse
  · cases hparse
  · obtain rfl := Except.ok.inj hparse
    cases hnormal : normalizeKey (QueueKey.target ⟨String.ofList key.apiBaseUrl.toList,
        String.ofList (key.repoFullName.toList ++ [':']), String.ofList rest⟩) with
    | error e => exact ⟨e, rfl⟩
    | ok normal =>
      obtain ⟨_, hrepo, _⟩ := normalizeKey_eq_ok.1 hnormal
      obtain ⟨hname, text, htext, htrim⟩ := normalizeRepoFullName_eq_ok.1 hrepo
      obtain rfl := Untyped.text.inj htext
      -- the name ends with a colon, so trimming leaves it alone
      have htrimmed : Trimmed (key.repoFullName.toList ++ [':']) := by
        constructor
        · rw [List.head?_append_of_ne_nil _ h.repoFullName.ne_nil]
          exact h.repoFullName.trimmed.head
        · intro c hc
          rw [List.getLast?_concat, Option.mem_some_iff] at hc
          rw [← hc]
          decide
      rw [trimText_eq_self (by rwa [String.toList_ofList])] at htrim
      have hcolon' := hname.no_colon
      rw [← htrim, String.toList_ofList] at hcolon'
      exact absurd (mem_append_right _ (mem_singleton_self _)) hcolon'

/-- **Which keys come back.** -/
theorem parseQueueItemId_queueItemId (h : AcceptedKey key) :
    parseQueueItemId (queueItemId key) = .ok key ↔ key.identifier.toList.head? ≠ some ':' := by
  constructor
  · intro hparse hcolon
    obtain ⟨e, herror⟩ := parseQueueItemId_colon h hcolon key hparse
    rw [normalizeKey_target h] at herror
    cases herror
  · exact parse_of_separable h

/-- The parts of an id: where the last separator stands, the repository before it keeps a colon or
does not. -/
theorem exists_parts (h : AcceptedKey key) :
    ∃ repo identifier, Separable repo ∧ Separable identifier ∧
    (queueItemId key).toList = key.apiBaseUrl.toList ++ itemIdSeparator ++ repo ++
      itemIdSeparator ++ identifier ∧
    ((repo = key.repoFullName.toList ∧ identifier = key.identifier.toList) ∨
      (repo = key.repoFullName.toList ++ [':'] ∧ ':' :: identifier = key.identifier.toList)) := by
  by_cases hcolon : key.identifier.toList.head? = some ':'
  · obtain ⟨rest, hrest⟩ := List.head?_eq_some_iff.1 hcolon
    exact ⟨_, rest, separable_concat_colon h.repoFullName.ne_nil h.repoFullName.no_colon,
      separable_of_colon h hrest,
      queueItemId_colon hrest, Or.inr ⟨rfl, hrest.symm⟩⟩
  · exact ⟨_, _, separable_of_no_colon h.repoFullName.no_colon, h.separable hcolon,
      String.toList_ofList,
      Or.inl ⟨rfl, rfl⟩⟩

/-- **Keys with one id are one key.** -/
theorem queueItemId_injective (h : AcceptedKey key) (h' : AcceptedKey key')
    (heq : queueItemId key = queueItemId key') : key = key' := by
  obtain ⟨repo, identifier, hrepo, hidentifier, hid, hparts⟩ := exists_parts h
  obtain ⟨repo', identifier', hrepo', hidentifier', hid', hparts'⟩ := exists_parts h'
  rw [heq, hid'] at hid
  obtain ⟨hfront, rfl⟩ := separated_inj hidentifier' hidentifier hid
  obtain ⟨hapi, rfl⟩ := separated_inj hrepo' hrepo hfront
  have hkey : key.repoFullName.toList = key'.repoFullName.toList ∧
      key.identifier.toList = key'.identifier.toList := by
    rcases hparts with ⟨hr, hi⟩ | ⟨hr, hi⟩
    · rcases hparts' with ⟨hr', hi'⟩ | ⟨hr', hi'⟩
      · exact ⟨hr.symm.trans hr', hi.symm.trans hi'⟩
      · exact absurd (hr.symm.trans hr' ▸ mem_append_right _ (mem_singleton_self _))
          h.repoFullName.no_colon
    · rcases hparts' with ⟨hr', hi'⟩ | ⟨hr', hi'⟩
      · exact absurd (hr'.symm.trans hr ▸ mem_append_right _ (mem_singleton_self _))
          h'.repoFullName.no_colon
      · exact ⟨append_cancel_right (hr.symm.trans hr'), hi.symm.trans hi'⟩
  obtain ⟨apiBaseUrl, repoFullName, identifier⟩ := key
  obtain ⟨apiBaseUrl', repoFullName', identifier'⟩ := key'
  rw [QueueKey.mk.injEq]
  exact ⟨(String.toList_inj.1 hapi).symm, String.toList_inj.1 hkey.1, String.toList_inj.1 hkey.2⟩

end Ids

end LoopOver.Portfolio
