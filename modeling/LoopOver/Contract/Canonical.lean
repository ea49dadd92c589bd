import LoopOver.Contract.Digest
import Mathlib.Order.Lex

/-!
# The canonical form

The text that `canonicalJson` writes determines the value it is written for, up to the order of the
fields of its objects. A reader of the text gets the value back with sorted fields
(`parseJson_canonicalJson`).

* `Json.WellFormed` values are those that JSON has: finite numbers, and objects as maps.
* `SameValue` is the equality of such values, with objects as unordered maps.
* `Json.sorted` has the fields of every object in the order of their keys, and says which values are
  the same (`sorted_eq_iff`).
* **`canonical_json_iff`**: two values have one text exactly when they are the same, and what is
  read back from a text has that text again.
-/

variable (items : List Json) {x : Json}

namespace LoopOver

open List

/-! ## Values -/

/-- What holds of the parts of a value holds of the value. -/
theorem Json.rec_parts {P : Json → Prop} (null : P .null) (bool : ∀ value, P (.bool value))
    (number : ∀ text, P (.number text)) (string : ∀ value, P (.string value))
    (array : ∀ items, (∀ item ∈ items, P item) → P (.array items))
    (object : ∀ fields, (∀ field ∈ fields, P field.2) → P (.object fields)) (x : Json) : P x := by
  refine @Json.rec P (fun items => ∀ item ∈ items,
    P item) (fun fields => ∀ field ∈ fields, P field.2)
    (fun field => P field.2) null bool number string array object ?_ ?_ ?_ ?_ ?_ x
  · simp
  · intro item items hitem hitems
    exact forall_mem_cons.2 ⟨hitem, hitems⟩
  · simp
  · intro field fields hfield hfields
    exact forall_mem_cons.2 ⟨hfield, hfields⟩
  · intro key value hvalue
    exact hvalue

/-- The characters of a number. -/
def isNumeralChar (c : Char) : Bool := c.isDigit || c == '-' || c == '+' || c == '.' || c == 'e'

/-- What `JSON.stringify` writes for a finite number is such a text. -/
def IsNumeral (text : String) : Prop := text.toList ≠ [] ∧ text.toList.all isNumeralChar = true

/-- The numbers are finite, and the keys of an object are distinct. -/
inductive Json.WellFormed : Json → Prop
  | null : WellFormed .null
  | bool (value : Bool) : WellFormed (.bool value)
  | number {text : String} (h : IsNumeral text) : WellFormed (.number text)
  | string (value : String) : WellFormed (.string value)
  | array {items : List Json} (h : ∀ item ∈ items, WellFormed item) : WellFormed (.array items)
  | object {fields : List (String × Json)} (hkeys : (fields.map Prod.fst).Nodup)
      (h : ∀ field ∈ fields, WellFormed field.2) : WellFormed (.object fields)

/-- The same value: the items of an array one by one, and the fields of an object by their keys. -/
inductive SameValue : Json → Json → Prop
  | null : SameValue .null .null
  | bool (value : Bool) : SameValue (.bool value) (.bool value)
  | number (text : String) : SameValue (.number text) (.number text)
  | string (value : String) : SameValue (.string value) (.string value)
  | array {items items' : List Json} (hlength : items.length = items'.length)
      (h : ∀ pair ∈ items.zip items', SameValue pair.1 pair.2) : SameValue (.array items)
        (.array items')
  | object {fields fields' : List (String × Json)}
      (hkeys : ∀ key, key ∈ fields.map Prod.fst ↔ key ∈ fields'.map Prod.fst)
      (h : ∀ field ∈ fields, ∀ field' ∈ fields', field.1 = field'.1 → SameValue field.2 field'.2) :
      SameValue (.object fields) (.object fields')

/-! ## The order of the keys -/

theorem utf16Units_inj {a b : String} (h : utf16Units a = utf16Units b) : a = b := by
  have hchars : ∀ s t : List Char, (s.flatMap fun c =>
        if c.toNat < 0x10000 then [c.toNat]
        else [0xD800 + (c.toNat - 0x10000) / 0x400, 0xDC00 + (c.toNat - 0x10000) % 0x400]) =
      (t.flatMap fun c =>
        if c.toNat < 0x10000 then [c.toNat]
        else [0xD800 + (c.toNat - 0x10000) / 0x400, 0xDC00 + (c.toNat - 0x10000) % 0x400]) →
          s = t := by
    intro s
    induction s with
    | nil =>
      intro t ht
      cases t with
      | nil => rfl
      | cons d t =>
        rw [flatMap_cons] at ht
        split at ht <;> cases ht
    | cons c s ih =>
      intro t ht
      cases t with
      | nil =>
        rw [flatMap_cons] at ht
        split at ht <;> cases ht
      | cons d t =>
        -- the first unit tells a character of one unit from one of two
        have hc : c.toNat < 0xD800 ∨ 0xDFFF < c.toNat ∧ c.toNat < 0x110000 := c.valid
        have hd : d.toNat < 0xD800 ∨ 0xDFFF < d.toNat ∧ d.toNat < 0x110000 := d.valid
        rw [flatMap_cons, flatMap_cons] at ht
        split at ht <;> split at ht <;> simp only [cons_append, nil_append, List.cons.injEq] at ht
        · rw [ih t ht.2, Char.toNat_inj.1 ht.1]
        · omega
        · omega
        · have hsame : c.toNat = d.toNat := by omega
          rw [ih t ht.2.2, Char.toNat_inj.1 hsame]
  exact String.toList_inj.1 (hchars _ _ h)

/-- The order of two fields by their keys. -/
def byKey {β : Type} (a b : String × β) : Prop := keyLe a.1 b.1

instance {β : Type} : DecidableRel (byKey (β := β)) :=
  fun a b => inferInstanceAs (Decidable (keyLe a.1 b.1))

instance {β : Type} : Std.Total (byKey (β := β)) :=
  ⟨fun a b => le_total (utf16Units a.1) (utf16Units b.1)⟩

instance {β : Type} : IsTrans (String × β) byKey := ⟨fun _ _ _ hab hbc => le_trans hab hbc⟩

section Fields

variable {β γ : Type} {fields fields' : List (String × β)}

theorem byKey_antisymm {a b : String × β} (hab : byKey a b) (hba : byKey b a) : a.1 = b.1 :=
  utf16Units_inj (le_antisymm hab hba)

/-- The fields in the order of their keys. -/
def sortFields (fields : List (String × β)) : List (String × β) := fields.insertionSort byKey

theorem sortFields_perm (fields : List (String × β)) : (sortFields fields).Perm fields :=
  perm_insertionSort byKey fields

theorem sortFields_sortFields (fields : List (String × β)) :
    sortFields (sortFields fields) = sortFields fields :=
  (pairwise_insertionSort byKey fields).insertionSort_eq

theorem sortFields_map (f : β → γ) (fields : List (String × β)) :
    sortFields (fields.map (Prod.map id f)) = (sortFields fields).map (Prod.map id f) :=
  (map_insertionSort byKey byKey (Prod.map id f) fields fun _ _ _ _ => Iff.rfl).symm

/-- Maps that are permutations of each other have one sorted form. -/
theorem sortFields_eq (hkeys : (fields.map Prod.fst).Nodup) (h : fields.Perm fields') :
    sortFields fields = sortFields fields' := by
  refine List.Perm.eq_of_pairwise (fun a b ha hb hab hba => ?_)
    (pairwise_insertionSort byKey fields)
    (pairwise_insertionSort byKey fields')
      ((sortFields_perm fields).trans (h.trans (sortFields_perm fields').symm))
  exact inj_on_of_nodup_map hkeys ((sortFields_perm fields).subset ha)
    (h.symm.subset ((sortFields_perm fields').subset hb)) (byKey_antisymm hab hba)

end Fields

/-! ## The sorted form -/

mutual

/-- The value with the fields of every object in the order of their keys. -/
def Json.sorted : Json → Json
  | .null => .null
  | .bool value => .bool value
  | .number text => .number text
  | .string value => .string value
  | .array items => .array (sortedItems items)
  | .object fields => .object (sortFields (sortedValues fields))

def sortedItems : List Json → List Json
  | [] => []
  | item :: items => item.sorted :: sortedItems items

def sortedValues : List (String × Json) → List (String × Json)
  | [] => []
  | (key, value) :: fields => (key, value.sorted) :: sortedValues fields

end

theorem sortedItems_eq : sortedItems items = items.map Json.sorted := by
  induction items with
  | nil => rfl
  | cons item items ih => rw [sortedItems, ih, map_cons]

theorem sortedValues_eq (fields : List (String × Json)) :
    sortedValues fields = fields.map (Prod.map id Json.sorted) := by
  induction fields with
  | nil => rfl
  | cons field fields ih => rw [sortedValues, ih, map_cons]; rfl

theorem canonicalItems_eq : canonicalItems items = items.map canonicalJson := by
  induction items with
  | nil => rfl
  | cons item items ih => rw [canonicalItems, ih, map_cons]

theorem canonicalFields_eq (fields : List (String × Json)) :
    canonicalFields fields = fields.map (Prod.map id canonicalJson) := by
  induction fields with
  | nil => rfl
  | cons field fields ih => rw [canonicalFields, ih, map_cons]; rfl

/-- The text of a field. -/
def fieldText (field : String × Json) : String := jsonString field.1 ++ ":" ++ canonicalJson field.2

theorem canonicalJson_array :
    canonicalJson (.array items) = "[" ++ ",".intercalate (items.map canonicalJson) ++ "]" := by
  rw [canonicalJson, canonicalItems_eq]

theorem canonicalJson_object (fields : List (String × Json)) :
    canonicalJson (.object fields) =
      "\x7b" ++ ",".intercalate ((sortFields fields).map fieldText) ++ "\x7d" := by
  have hsorted : (canonicalFields fields).insertionSort (fun a b => keyLe a.1 b.1) =
      (sortFields fields).map (Prod.map id canonicalJson) := by
    rw [canonicalFields_eq]
    exact sortFields_map canonicalJson fields
  rw [canonicalJson, hsorted, map_map]
  rfl

/-- The sorted form has the same text. -/
theorem canonicalJson_sorted (x : Json) : canonicalJson x.sorted = canonicalJson x := by
  induction x using Json.rec_parts with
  | null | bool | number | string => simp only [Json.sorted]
  | array items ih =>
    rw [Json.sorted, sortedItems_eq, canonicalJson_array, canonicalJson_array, map_map]
    exact congrArg (fun texts => "[" ++ ",".intercalate texts ++ "]") (map_congr_left ih)
  | object fields ih =>
    rw [Json.sorted, sortedValues_eq, sortFields_map, canonicalJson_object, canonicalJson_object,
      sortFields_map, sortFields_sortFields, map_map]
    refine congrArg (fun texts => "\x7b" ++ ",".intercalate texts ++ "\x7d") (map_congr_left ?_)
    intro field hfield
    change jsonString field.1 ++ ":" ++ canonicalJson field.2.sorted = fieldText field
    rw [ih field ((sortFields_perm fields).subset hfield)]
    rfl

/-! ## The same value -/

theorem map_eq_map_iff {β γ : Type} (f : β → γ) (items items' : List β) :
    items.map f = items'.map f ↔
      items.length = items'.length ∧ ∀ pair ∈ items.zip items', f pair.1 = f pair.2 := by
  induction items generalizing items' with
  | nil => cases items' <;> simp
  | cons item items ih =>
    cases items' with
    | nil => simp
    | cons item' items' =>
      simp only [map_cons, List.cons.injEq, ih items', length_cons, Nat.succ.injEq, zip_cons_cons,
        forall_mem_cons]
      tauto

section Maps

variable {β γ : Type} {fields fields' : List (String × β)} (f : β → γ)

theorem map_keys (fields : List (String × β)) :
    (fields.map (Prod.map id f)).map Prod.fst = fields.map Prod.fst := by
  rw [map_map]
  rfl

/-- Maps have one sorted form exactly when they have the same keys, and the same value for each of
them. -/
theorem sortFields_map_eq_iff (hkeys : (fields.map Prod.fst).Nodup)
    (hkeys' : (fields'.map Prod.fst).Nodup) :
    sortFields (fields.map (Prod.map id f)) = sortFields (fields'.map (Prod.map id f)) ↔
      (∀ key, key ∈ fields.map Prod.fst ↔ key ∈ fields'.map Prod.fst) ∧
        ∀ field ∈ fields, ∀ field' ∈ fields', field.1 = field'.1 → f field.2 = f field'.2 := by
  constructor
  · intro h
    have hperm : (fields.map (Prod.map id f)).Perm (fields'.map (Prod.map id f)) :=
      (sortFields_perm _).symm.trans (h ▸ sortFields_perm _)
    refine ⟨fun key => ?_, fun field hfield field' hfield' hkey => ?_⟩
    · rw [← map_keys f fields, ← map_keys f fields']
      exact (hperm.map Prod.fst).mem_iff
    · obtain ⟨other, hother, heq⟩ := mem_map.1 (hperm.subset (mem_map_of_mem hfield))
      obtain ⟨hfst, hsnd⟩ := Prod.mk.inj heq
      rw [inj_on_of_nodup_map hkeys' hother hfield' (hfst.trans hkey)] at hsnd
      exact hsnd.symm
  · rintro ⟨hsame, hvalues⟩
    refine sortFields_eq (by rwa [map_keys]) ((perm_ext_iff_of_nodup (.of_map Prod.fst ?_)
      (.of_map Prod.fst ?_)).2 fun entry => ?_)
    · rwa [map_keys]
    · rwa [map_keys]
    · simp only [mem_map]
      constructor
      · rintro ⟨field, hfield, rfl⟩
        obtain ⟨field', hfield', hkey⟩ := mem_map.1 ((hsame field.1).1 (mem_map_of_mem hfield))
        exact ⟨field', hfield', Prod.ext hkey (hvalues field hfield field' hfield' hkey.symm).symm⟩
      · rintro ⟨field', hfield', rfl⟩
        obtain ⟨field, hfield, hkey⟩ := mem_map.1 ((hsame field'.1).2 (mem_map_of_mem hfield'))
        exact ⟨field, hfield, Prod.ext hkey (hvalues field hfield field' hfield' hkey)⟩

end Maps

/-- The sorted form says which values are the same. -/
theorem sorted_eq_iff {x y : Json} (hx : x.WellFormed) (hy : y.WellFormed) :
    x.sorted = y.sorted ↔ SameValue x y := by
  induction x using Json.rec_parts generalizing y with
  | null =>
    refine ⟨fun h => ?_, fun h => by cases h; rfl⟩
    cases y <;> cases h
    exact .null
  | bool value =>
    refine ⟨fun h => ?_, fun h => by cases h; rfl⟩
    cases y <;> cases h
    exact .bool value
  | number text =>
    refine ⟨fun h => ?_, fun h => by cases h; rfl⟩
    cases y <;> cases h
    exact .number text
  | string value =>
    refine ⟨fun h => ?_, fun h => by cases h; rfl⟩
    cases y <;> cases h
    exact .string value
  | array items ih =>
    cases y with
    | null | bool | number | string | object =>
      exact iff_of_false nofun nofun
    | array items' =>
      cases hx with | array hitems =>
      cases hy with | array hitems' =>
      have hpairs : ∀ pair ∈ items.zip items',
          (pair.1.sorted = pair.2.sorted ↔ SameValue pair.1 pair.2) := by
        intro pair hpair
        obtain ⟨hmem, hmem'⟩ := of_mem_zip hpair
        exact ih pair.1 hmem (hitems _ hmem) (hitems' _ hmem')
      rw [Json.sorted, Json.sorted, Json.array.injEq, sortedItems_eq, sortedItems_eq,
        map_eq_map_iff]
      constructor
      · rintro ⟨hlength, hsorted⟩
        exact .array hlength fun pair hpair => (hpairs pair hpair).1 (hsorted pair hpair)
      · rintro ⟨⟩
        rename_i hlength hsame
        exact ⟨hlength, fun pair hpair => (hpairs pair hpair).2 (hsame pair hpair)⟩
  | object fields ih =>
    cases y with
    | null | bool | number | string | array =>
      exact iff_of_false nofun nofun
    | object fields' =>
      cases hx with | object hkeys hfields =>
      cases hy with | object hkeys' hfields' =>
      have hvalues : ∀ field ∈ fields, ∀ field' ∈ fields',
          (field.2.sorted = field'.2.sorted ↔ SameValue field.2 field'.2) :=
        fun field hfield field' hfield' => ih field hfield (hfields _ hfield) (hfields' _ hfield')
      rw [Json.sorted, Json.sorted, Json.object.injEq, sortedValues_eq, sortedValues_eq,
        sortFields_map_eq_iff Json.sorted hkeys hkeys']
      constructor
      · rintro ⟨hsame, hsorted⟩
        exact .object hsame fun field hfield field' hfield' hkey =>
          (hvalues field hfield field' hfield').1 (hsorted field hfield field' hfield' hkey)
      · rintro ⟨⟩
        rename_i hsame hvalue
        exact ⟨hsame, fun field hfield field' hfield' hkey =>
          (hvalues field hfield field' hfield').2 (hvalue field hfield field' hfield' hkey)⟩

/-! ## Reading a text back -/

mutual

/-- Reads the value at the head of a text without whitespace. -/
def readJson : ℕ → List Char → Option (Json × List Char)
  | 0, _ => none
  | _ + 1, 'n' :: 'u' :: 'l' :: 'l' :: rest => some (.null, rest)
  | _ + 1, 't' :: 'r' :: 'u' :: 'e' :: rest => some (.bool true, rest)
  | _ + 1, 'f' :: 'a' :: 'l' :: 's' :: 'e' :: rest => some (.bool false, rest)
  | _ + 1, '"' :: rest => (readString rest).map fun r => (.string (String.ofList r.1), r.2)
  | _ + 1, '[' :: ']' :: rest => some (.array [], rest)
  | fuel + 1, '[' :: rest => (readItems fuel rest).map fun r => (.array r.1, r.2)
  | _ + 1, '\x7b' :: '\x7d' :: rest => some (.object [], rest)
  | fuel + 1, '\x7b' :: rest => (readFields fuel rest).map fun r => (.object r.1, r.2)
  | _ + 1, text =>
    if text.takeWhile isNumeralChar = [] then none
    else some (.number (String.ofList (text.takeWhile isNumeralChar)), text.dropWhile isNumeralChar)

/-- Reads the items of an array up to its bracket. -/
def readItems : ℕ → List Char → Option (List Json × List Char)
  | 0, _ => none
  | fuel + 1, text =>
    match readJson fuel text with
    | some (item, ',' :: rest) => (readItems fuel rest).map fun r => (item :: r.1, r.2)
    | some (item, ']' :: rest) => some ([item], rest)
    | _ => none

/-- Reads the fields of an object up to its brace. -/
def readFields : ℕ → List Char → Option (List (String × Json) × List Char)
  | fuel + 1, '"' :: text =>
    match readString text with
    | some (key, ':' :: text) =>
      match readJson fuel text with
      | some (value, ',' :: rest) =>
        (readFields fuel rest).map fun r => ((String.ofList key, value) :: r.1, r.2)
      | some (value, '\x7d' :: rest) => some ([(String.ofList key, value)], rest)
      | _ => none
    | _ => none
  | _, _ => none

end

/-- `JSON.parse` of a text as `canonicalJson` writes it: without whitespace, with the escapes of
`JSON.stringify` only, and with each number in the form that `JSON.stringify` gives it. -/
def parseJson (text : String) : Option Json :=
  match readJson (2 * text.toList.length) text.toList with
  | some (value, []) => some value
  | _ => none

/-! ### What is written is read back -/

/-- No number goes on into the rest. -/
def Delimits (rest : List Char) : Prop := ∀ c ∈ rest.head?, isNumeralChar c = false

/-- The text of the value is read up to its end. -/
def ReadBack (x : Json) : Prop :=
  ∀ fuel rest, 2 * (canonicalJson x).toList.length ≤ fuel → Delimits rest →
    readJson fuel ((canonicalJson x).toList ++ rest) = some (x.sorted, rest)

theorem readJson_number {text : String} (h : IsNumeral text) {fuel : ℕ} {rest : List Char}
    (hrest : Delimits rest) :
    readJson (fuel + 1) (text.toList ++ rest) = some (.number text, rest) := by
  obtain ⟨hne, hall⟩ := h
  have htake : (text.toList ++ rest).takeWhile isNumeralChar = text.toList := by
    rw [takeWhile_append_of_pos (all_eq_true.1 hall)]
    cases rest with
    | nil => simp
    | cons c rest => simp [hrest c rfl]
  have hdrop : (text.toList ++ rest).dropWhile isNumeralChar = rest := by
    rw [dropWhile_append_of_pos (all_eq_true.1 hall)]
    cases rest with
    | nil => rfl
    | cons c rest => simp [hrest c rfl]
  cases hchars : text.toList with
  | nil => exact absurd hchars hne
  | cons c chars =>
    have hc : isNumeralChar c = true := by
      rw [hchars] at hall
      exact all_eq_true.1 hall c mem_cons_self
    rw [hchars] at htake hdrop
    -- no other value begins with a character of a number
    have hother : c ≠ 'n' ∧ c ≠ 't' ∧ c ≠ 'f' ∧ c ≠ '"' ∧ c ≠ '[' ∧ c ≠ '\x7b' := by
      refine ⟨?_, ?_, ?_, ?_, ?_, ?_⟩ <;> rintro rfl <;> exact absurd hc (by decide)
    obtain ⟨hn, ht, hf, hquote, hbracket, hbrace⟩ := hother
    rw [readJson, htake, hdrop, if_neg (cons_ne_nil c chars), ← hchars, String.ofList_toList]
    all_goals
      intros
      simp_all

/-- The texts of the parts of an array or of an object, with commas between them. -/
def joined (texts : List String) : List Char := [','].intercalate (texts.map String.toList)

theorem joined_cons_cons (text next : String) (texts : List String) :
    joined (text :: next :: texts) = text.toList ++ ',' :: joined (next :: texts) := by
  simp [joined, intercalate_cons_cons]

theorem joined_singleton (text : String) : joined [text] = text.toList := by
  simp [joined]

theorem array_toList :
    (canonicalJson (.array items)).toList = '[' :: (joined (items.map canonicalJson) ++ [']']) := by
  rw [canonicalJson_array, String.toList_append, String.toList_append, String.toList_intercalate]
  rfl

theorem object_toList (fields : List (String × Json)) :
    (canonicalJson (.object fields)).toList =
      '\x7b' :: (joined ((sortFields fields).map fieldText) ++ ['\x7d']) := by
  rw [canonicalJson_object, String.toList_append, String.toList_append, String.toList_intercalate]
  rfl

/-- The text of a value is not empty, and does not begin with a closing bracket. -/
theorem canonicalJson_head (hx : x.WellFormed) :
    ∃ c chars, (canonicalJson x).toList = c :: chars ∧ c ≠ ']' := by
  cases hx with
  | null => exact ⟨'n', _, rfl, by decide⟩
  | bool value =>
    cases value with
    | true => exact ⟨'t', _, rfl, by decide⟩
    | false => exact ⟨'f', _, rfl, by decide⟩
  | @number text h =>
    obtain ⟨hne, hall⟩ := h
    obtain ⟨c, chars, hchars⟩ := exists_cons_of_ne_nil hne
    refine ⟨c, chars, hchars, ?_⟩
    rintro rfl
    rw [hchars] at hall
    exact absurd (all_eq_true.1 hall _ mem_cons_self) (by decide)
  | string value =>
    exact ⟨'"', _, by rw [canonicalJson, jsonString, String.toList_ofList], by decide⟩
  | array h => exact ⟨'[', _, array_toList _, by decide⟩
  | object hkeys h => exact ⟨'\x7b', _, object_toList _, by decide⟩

theorem joined_head (hx : x.WellFormed) (texts : List String) :
    ∃ c chars, joined (canonicalJson x :: texts) = c :: chars ∧ c ≠ ']' := by
  obtain ⟨c, chars, hchars, hbracket⟩ := canonicalJson_head hx
  cases texts with
  | nil => exact ⟨c, chars, (joined_singleton _).trans hchars, hbracket⟩
  | cons next texts =>
    rw [joined_cons_cons, hchars]
    exact ⟨c, _, rfl, hbracket⟩

theorem readItems_joined {item : Json} {items : List Json}
    (hwell : ∀ x ∈ item :: items, x.WellFormed) (hread : ∀ x ∈ item :: items, ReadBack x) {fuel : ℕ}
    {rest : List Char}
    (hfuel : 2 * (joined ((item :: items).map canonicalJson)).length + 1 ≤ fuel) :
    readItems fuel (joined ((item :: items).map canonicalJson) ++ ']' :: rest) =
      some ((item :: items).map Json.sorted, rest) := by
  induction items generalizing item fuel with
  | nil =>
    cases fuel with
    | zero => omega
    | succ fuel =>
      rw [map_singleton, joined_singleton] at hfuel ⊢
      have hitem := hread item mem_cons_self fuel (']' :: rest) (by omega) (by rintro c ⟨⟩; decide)
      rw [readItems, hitem]
      rfl
  | cons next items ih =>
    cases fuel with
    | zero => omega
    | succ fuel =>
      rw [map_cons, map_cons, joined_cons_cons, length_append, length_cons] at hfuel
      obtain ⟨c, chars, hchars, -⟩ := canonicalJson_head (hwell item mem_cons_self)
      have hpos : 0 < (canonicalJson item).toList.length := by simp [hchars]
      have hitem := hread item mem_cons_self fuel
        (',' :: (joined ((next :: items).map canonicalJson) ++ ']' :: rest)) (by omega)
          (by rintro c ⟨⟩; decide)
      have hless : 2 * (joined ((next :: items).map canonicalJson)).length + 1 ≤ fuel := by
        rw [map_cons]
        omega
      have hitems := ih (fun x hx => hwell x (mem_cons_of_mem _ hx))
        (fun x hx => hread x (mem_cons_of_mem _ hx)) hless
      rw [map_cons, map_cons, joined_cons_cons, append_assoc, cons_append, ← map_cons,
        readItems, hitem]
      change (readItems fuel _).map _ = _
      rw [hitems]
      rfl

theorem fieldText_toList (field : String × Json) (rest : List Char) :
    (fieldText field).toList ++ rest =
      '"' :: (field.1.toList.flatMap escapeChar ++
        '"' :: ':' :: ((canonicalJson field.2).toList ++ rest)) := by
  simp [fieldText, jsonString]

theorem readFields_joined {field : String × Json} {fields : List (String × Json)}
    (hread : ∀ f ∈ field :: fields, ReadBack f.2) {fuel : ℕ} {rest : List Char}
    (hfuel : 2 * (joined ((field :: fields).map fieldText)).length + 1 ≤ fuel) :
    readFields fuel (joined ((field :: fields).map fieldText) ++ '\x7d' :: rest) =
      some ((field :: fields).map (Prod.map id Json.sorted), rest) := by
  have hlength : ∀ f : String × Json, (canonicalJson f.2).toList.length <
      (fieldText f).toList.length := by
    intro f
    have := congrArg List.length (fieldText_toList f [])
    simp only [append_nil, length_cons, length_append] at this
    omega
  induction fields generalizing field fuel with
  | nil =>
    cases fuel with
    | zero => omega
    | succ fuel =>
      rw [map_singleton, joined_singleton] at hfuel ⊢
      have hless := hlength field
      have hvalue :=
        hread field mem_cons_self fuel ('\x7d' :: rest) (by omega) (by rintro c ⟨⟩; decide)
      simp only [fieldText_toList, readFields, readString_encoded, hvalue, String.ofList_toList]
      rfl
  | cons next fields ih =>
    cases fuel with
    | zero => omega
    | succ fuel =>
      rw [map_cons, map_cons, joined_cons_cons, length_append, length_cons] at hfuel
      have hless := hlength field
      have hvalue := hread field mem_cons_self fuel
        (',' :: (joined ((next :: fields).map fieldText) ++ '\x7d' :: rest)) (by omega)
          (by rintro c ⟨⟩; decide)
      have hmore : 2 * (joined ((next :: fields).map fieldText)).length + 1 ≤ fuel := by
        rw [map_cons]
        omega
      have hfields := ih (fun f hf => hread f (mem_cons_of_mem _ hf)) hmore
      rw [map_cons, map_cons, joined_cons_cons, append_assoc, cons_append, ← map_cons,
        fieldText_toList]
      simp only [readFields, readString_encoded, hvalue, hfields, String.ofList_toList]
      rfl

theorem readBack_array {items : List Json} (hitems : ∀ x ∈ items, x.WellFormed)
    (hread : ∀ x ∈ items, ReadBack x) :
    ReadBack (.array items) := by
  intro fuel rest hfuel _
  rw [array_toList] at hfuel ⊢
  rw [Json.sorted, sortedItems_eq]
  simp only [length_cons, length_append, length_nil] at hfuel
  cases fuel with
  | zero => omega
  | succ fuel =>
    cases items with
    | nil => rfl
    | cons item items =>
      have hless : 2 * (joined ((item :: items).map canonicalJson)).length + 1 ≤ fuel := by omega
      have hback := @readItems_joined item items hitems hread fuel rest hless
      obtain ⟨c, chars, hchars, hbracket⟩ := joined_head (hitems item mem_cons_self)
        (items.map canonicalJson)
      rw [← map_cons] at hchars
      rw [cons_append, append_assoc, singleton_append]
      rw [hchars, cons_append] at hback ⊢
      rw [readJson, hback]
      · rfl
      · simp [hbracket]

theorem readBack_object {fields : List (String × Json)}
    (hread : ∀ field ∈ fields, ReadBack field.2) :
    ReadBack (.object fields) := by
  intro fuel rest hfuel _
  rw [object_toList] at hfuel ⊢
  rw [Json.sorted, sortedValues_eq, sortFields_map]
  simp only [length_cons, length_append, length_nil] at hfuel
  have hmem : ∀ field ∈ sortFields fields, ReadBack field.2 := fun field hfield =>
    hread field ((sortFields_perm fields).subset hfield)
  cases fuel with
  | zero => omega
  | succ fuel =>
    cases hsorted : sortFields fields with
    | nil => rfl
    | cons field rest' =>
      rw [hsorted] at hmem hfuel
      have hless : 2 * (joined ((field :: rest').map fieldText)).length + 1 ≤ fuel := by omega
      have hback := @readFields_joined field rest' hmem fuel rest hless
      obtain ⟨chars, hchars⟩ : ∃ chars, joined ((field :: rest').map fieldText) = '"' :: chars := by
        cases rest' with
        | nil =>
          exact ⟨_,
            (joined_singleton _).trans ((append_nil _).symm.trans (fieldText_toList field []))⟩
        | cons next rest' => exact ⟨_, (joined_cons_cons _ _ _).trans (fieldText_toList field _)⟩
      rw [cons_append, append_assoc, singleton_append]
      rw [hchars, cons_append] at hback ⊢
      rw [readJson, hback]
      · rfl
      · simp

theorem readBack (hx : x.WellFormed) : ReadBack x := by
  induction x using Json.rec_parts with
  | null =>
    intro fuel rest hfuel _
    cases fuel with
    | zero => exact absurd hfuel (by decide)
    | succ fuel => rfl
  | bool value =>
    intro fuel rest hfuel _
    cases fuel with
    | zero => cases value <;> exact absurd hfuel (by decide)
    | succ fuel => cases value <;> rfl
  | number text =>
    cases hx with | number h =>
    intro fuel rest hfuel hrest
    cases fuel with
    | zero =>
      have hpos := length_pos_iff.2 h.1
      rw [canonicalJson] at hfuel
      omega
    | succ fuel => exact readJson_number h hrest
  | string value =>
    intro fuel rest hfuel _
    cases fuel with
    | zero => simp [canonicalJson, jsonString] at hfuel
    | succ fuel =>
      rw [canonicalJson, jsonString, String.toList_ofList, cons_append, append_assoc,
        singleton_append, readJson, readString_encoded]
      rw [Option.map_some, String.ofList_toList]
      rfl
  | array items ih =>
    cases hx with | array hitems =>
    exact readBack_array hitems fun item hitem => ih item hitem (hitems item hitem)
  | object fields ih =>
    cases hx with | object hkeys hfields =>
    exact readBack_object fun field hfield => ih field hfield (hfields field hfield)

/-- **What is read back is the sorted form.** -/
theorem parseJson_canonicalJson (hx : x.WellFormed) :
    parseJson (canonicalJson x) = some x.sorted := by
  have hread := readBack hx (2 * (canonicalJson x).toList.length) [] le_rfl (by rintro c ⟨⟩)
  rw [append_nil] at hread
  rw [parseJson, hread]

/-! ## The canonical form -/

theorem sorted_wellFormed (hx : x.WellFormed) : x.sorted.WellFormed := by
  induction x using Json.rec_parts with
  | null | bool | number | string => exact hx
  | array items ih =>
    cases hx with | array hitems =>
    rw [Json.sorted, sortedItems_eq]
    refine .array fun item hitem => ?_
    obtain ⟨before, hbefore, rfl⟩ := mem_map.1 hitem
    exact ih before hbefore (hitems before hbefore)
  | object fields ih =>
    cases hx with | object hkeys hfields =>
    rw [Json.sorted, sortedValues_eq]
    refine .object ?_ fun field hfield => ?_
    · rw [((sortFields_perm _).map Prod.fst).nodup_iff, map_keys]
      exact hkeys
    · obtain ⟨before, hbefore, rfl⟩ := mem_map.1 ((sortFields_perm _).subset hfield)
      exact ih before hbefore (hfields before hbefore)

/-- The sorted form is the same value. -/
theorem sameValue_sorted (hx : x.WellFormed) : SameValue x x.sorted := by
  have hwell := sorted_wellFormed hx
  refine (sorted_eq_iff hx hwell).1 ?_
  have htwice := parseJson_canonicalJson hwell
  rw [canonicalJson_sorted, parseJson_canonicalJson hx] at htwice
  exact Option.some.inj htwice

/-- **Canonical JSON is a canonical form.** Two values have one text exactly when they are the same
value, and what is read back from the text is the same value and has the same text, and so the same
digest. -/
theorem canonical_json_iff {x y : Json} (hx : x.WellFormed) (hy : y.WellFormed) :
    (canonicalJson x = canonicalJson y ↔ SameValue x y) ∧
      ∃ stored, parseJson (canonicalJson x) = some stored ∧ SameValue x stored ∧
        canonicalJson stored = canonicalJson x ∧
        ∀ sha256Hex : String →
          String, sha256Hex (canonicalJson stored) = sha256Hex (canonicalJson x) := by
  refine ⟨?_, x.sorted, parseJson_canonicalJson hx, sameValue_sorted hx, canonicalJson_sorted x,
    fun sha256Hex => congrArg sha256Hex (canonicalJson_sorted x)⟩
  rw [← sorted_eq_iff hx hy]
  constructor
  · intro h
    have hread := parseJson_canonicalJson hx
    rw [h, parseJson_canonicalJson hy] at hread
    exact (Option.some.inj hread).symm
  · intro h
    rw [← canonicalJson_sorted x, h, canonicalJson_sorted]

/-- A small record, with its fields in the order of their definition. -/
def smallRecord : Json :=
  .object [("schemaVersion", .string "5"), ("findings", .array [.number "2", .null])]

/-- The same record, with its fields the other way round. -/
def smallRecordReversed : Json :=
  .object [("findings", .array [.number "2", .null]), ("schemaVersion", .string "5")]

theorem canonical_json_small :
    (canonicalJson smallRecord = canonicalJson smallRecordReversed ↔
      SameValue smallRecord smallRecordReversed) ∧
      ∃ stored, parseJson (canonicalJson smallRecord) = some stored ∧ SameValue smallRecord stored ∧
        canonicalJson stored = canonicalJson smallRecord ∧
        ∀ sha256Hex : String → String,
          sha256Hex (canonicalJson stored) = sha256Hex (canonicalJson smallRecord) := by
  have hfindings : (Json.array [.number "2", .null]).WellFormed :=
    .array (forall_mem_cons.2 ⟨.number ⟨by decide, by decide⟩, forall_mem_singleton.2 .null⟩)
  refine canonical_json_iff (.object (by decide) (forall_mem_cons.2 ⟨.string "5", ?_⟩))
    (.object (by decide) (forall_mem_cons.2 ⟨hfindings, ?_⟩))
  · exact forall_mem_singleton.2 hfindings
  · exact forall_mem_singleton.2 (.string "5")

end LoopOver
