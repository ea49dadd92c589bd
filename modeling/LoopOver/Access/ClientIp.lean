import LoopOver.Access.RateLimit

/-!
# Headers do not choose the bucket

A self-hosted instance counts a request against the peer of the socket, whatever its headers say,
unless it takes the text of the peer's address for no address at all. It does so for the mapped form
`::ffff:a.b.c.d` of a dual-stack listener, and for an address with a zone.

* `PeerAddress` has the forms in which a socket reports an address.
* `isValidIpAddress_iff` says which of them the validators accept.
* **`client_ip_ignores_headers_iff`** has the law, and `mapped_peer_spoofed` is a request that
  breaks it.
-/

variable (peer : PeerAddress)

namespace LoopOver.RateLimit

open List

/-! ## What a socket reports -/

/-- A group of one to four hexadecimal digits. -/
structure Hextet where
  chars : List Char
  size : 1 ≤ chars.length ∧ chars.length ≤ 4
  hex : ∀ c ∈ chars, isHexDigit c = true

instance neZero_octet : @NeZero ℕ Zero.ofOfNat0 256 := ⟨by decide⟩

structure Octets where
  a : Fin 256
  b : Fin 256
  c : Fin 256
  d : Fin 256

def Octets.list (octets : Octets) : List (Fin 256) := [octets.a, octets.b, octets.c, octets.d]

/-- Dotted. -/
def Octets.text (octets : Octets) : List Char :=
  ['.'].intercalate (octets.list.map fun octet => Nat.toDigits 10 octet.val)

/-- An IPv6 address: the groups in front of `::` and after it, or all of them, with the last two
dotted or not, and a zone. Only two groups or more are left out. -/
structure Ipv6Text where
  front : List Hextet
  back : Option (List Hextet)
  mapped : Option Octets
  zone : Option (List Char)
  size : match back with
    | none => front.length + 2 * mapped.toList.length = 8
    | some back => front.length + back.length + 2 * mapped.toList.length ≤ 6
  specified : front ≠ [] ∨ back.getD [] ≠ [] ∨ mapped ≠ none
  zoned : ∀ chars ∈ zone, ∀ c ∈ chars, isRegexSpace c = false

/-- The groups after `::`, or after the others, as they are written. -/
def Ipv6Text.tail (address : Ipv6Text) : List (List Char) :=
  (address.back.getD []).map Hextet.chars ++ address.mapped.toList.map Octets.text

/-- The address without its zone. -/
def Ipv6Text.body (address : Ipv6Text) : List Char :=
  match address.back with
  | none => [':'].intercalate (address.front.map Hextet.chars ++ address.tail)
  | some _ => [':'].intercalate (address.front.map Hextet.chars) ++
    ':' :: ':' :: [':'].intercalate address.tail

def Ipv6Text.text (address : Ipv6Text) : List Char :=
  address.body ++ (address.zone.map fun chars => '%' :: chars).getD []

def hextetValue (hextet : Hextet) : ℕ :=
  hextet.chars.foldl (fun n c => 16 * n + hexValue c.toLower) 0

/-- The eight groups of the address. -/
def Ipv6Text.groups (address : Ipv6Text) : List ℕ :=
  let back := (address.back.getD []).map hextetValue ++
    address.mapped.toList.flatMap fun octets =>
      [256 * octets.a.val + octets.b.val, 256 * octets.c.val + octets.d.val]
  let front := address.front.map hextetValue
  front ++ List.replicate (8 - (front.length + back.length)) 0 ++ back

inductive PeerAddress
  | ipv4 (octets : Octets)
  | ipv6 (address : Ipv6Text)

def PeerAddress.text : PeerAddress → List Char
  | ipv4 octets => octets.text
  | ipv6 address => address.text

/-- `127.0.0.0/8`, also mapped, and `::1`. -/
def PeerAddress.IsLoopback : PeerAddress → Prop
  | ipv4 octets => octets.a = 127
  | ipv6 address => address.groups = [0, 0, 0, 0, 0, 0, 0, 1] ∨
      address.groups.take 6 = [0, 0, 0, 0, 0, 65535] ∧ address.groups[6]?.map (· / 256) = some 127

/-- Nothing of the address is dotted in groups, and it has no zone. -/
def PeerAddress.Plain : PeerAddress → Prop
  | ipv4 _ => True
  | ipv6 address => address.mapped = none ∧ address.zone = none

/-! ## Texts -/

section Texts

variable {chars : List Char} {pieces : List (List Char)} {c sep : Char} {hextet : Hextet}
  {octets : Octets}
  {address : Ipv6Text}

/-- A character is in one of the pieces, or it is what the text was split at. -/
theorem mem_splitOn (h : c ∈ chars) (hne : c ≠ sep) : ∃ piece ∈ chars.splitOn sep, c ∈ piece := by
  have hjoin : [sep].intercalate (chars.splitOn sep) = chars := intercalate_splitOn sep
  rw [← hjoin] at h
  exact (mem_intercalate h).resolve_left hne

theorem isHexDigit_ne (h : isHexDigit c = true) (hsep : isHexDigit sep = false) : c ≠ sep := by
  rintro rfl
  rw [h] at hsep
  cases hsep

theorem isRegexSpace_of_isHexDigit (h : isHexDigit c = true) : isRegexSpace c = false := by
  have hrange : 48 ≤ c.toNat ∧ c.toNat ≤ 102 := by
    simp only [isHexDigit, Char.isDigit, Bool.or_eq_true, Bool.and_eq_true, decide_eq_true_eq,
      Char.le_def, ge_iff_le, UInt32.le_iff_toNat_le] at h
    have hval : c.val.toNat = c.toNat := rfl
    have hends : '0'.val.toNat = 48 ∧ '9'.val.toNat = 57 ∧ 'a'.val.toNat = 97 ∧
      'f'.val.toNat = 102 ∧
      'A'.val.toNat = 65 ∧ 'F'.val.toNat = 70 := by decide
    omega
  rw [Bool.eq_false_iff]
  intro hspace
  simp only [isRegexSpace, Bool.or_eq_true, Bool.and_eq_true, decide_eq_true_eq,
    beq_iff_eq] at hspace
  omega

theorem Hextet.ne_nil (hextet : Hextet) : hextet.chars ≠ [] := by
  intro hnil
  have hsize := hextet.size.1
  rw [hnil] at hsize
  cases hsize

theorem Hextet.colon_notMem (hextet : Hextet) : ':' ∉ hextet.chars := fun hmem =>
  isHexDigit_ne (hextet.hex _ hmem) (by decide) rfl

/-- What the digits of an octet are. -/
theorem octet_facts : ∀ octet : Fin 256, isOctet (Nat.toDigits 10 octet.val) = true ∧
    (Nat.toDigits 10 octet.val).all Char.isDigit = true := by decide +kernel

theorem Octets.mem_text (h : c ∈ octets.text) : c = '.' ∨ c.isDigit = true := by
  rcases mem_intercalate h with hsep | ⟨piece, hpiece, hc⟩
  · exact Or.inl hsep
  · obtain ⟨octet, -, rfl⟩ := mem_map.1 hpiece
    exact Or.inr (all_eq_true.1 (octet_facts octet).2 c hc)

theorem Octets.splitOn_text (octets : Octets) :
    octets.text.splitOn '.' = octets.list.map fun octet => Nat.toDigits 10 octet.val := by
  refine splitOn_intercalate '.' (fun piece hpiece hdot => ?_) (by simp [Octets.list])
  obtain ⟨octet, -, rfl⟩ := mem_map.1 hpiece
  exact absurd (all_eq_true.1 (octet_facts octet).2 _ hdot) (by decide)

theorem Octets.isValidIpv4_text (octets : Octets) : isValidIpv4 octets.text = true := by
  have hall : (octets.list.map fun octet => Nat.toDigits 10 octet.val).all isOctet = true := by
    rw [all_map, all_eq_true]
    exact fun octet _ => (octet_facts octet).1
  rw [isValidIpv4, octets.splitOn_text, hall]
  rfl

theorem Octets.colon_notMem (octets : Octets) : ':' ∉ octets.text := by
  intro hmem
  rcases octets.mem_text hmem with h | h
  · exact absurd h (by decide)
  · exact absurd h (by decide)

theorem Ipv6Text.colon_notMem_tail (address : Ipv6Text) : ∀ piece ∈ address.tail, ':' ∉ piece := by
  intro piece hpiece
  rcases mem_append.1 hpiece with h | h
  · obtain ⟨hextet, -, rfl⟩ := mem_map.1 h
    exact hextet.colon_notMem
  · obtain ⟨octets, -, rfl⟩ := mem_map.1 h
    exact octets.colon_notMem

/-- The segments of some groups; no groups are one empty segment. -/
theorem splitOn_groups (h : ∀ piece ∈ pieces, ':' ∉ piece) :
    ([':'].intercalate pieces).splitOn ':' = if pieces = [] then [[]] else pieces := by
  split_ifs with hnil
  · rw [hnil]
    rfl
  · exact splitOn_intercalate ':' h hnil

theorem Ipv6Text.colon_notMem_front (address : Ipv6Text) :
    ∀ piece ∈ address.front.map Hextet.chars, ':' ∉ piece := by
  intro piece hpiece
  obtain ⟨hextet, -, rfl⟩ := mem_map.1 hpiece
  exact hextet.colon_notMem

/-- The segments of an address without its zone. -/
theorem Ipv6Text.splitOn_body (address : Ipv6Text) : address.body.splitOn ':' =
    match address.back with
    | none => address.front.map Hextet.chars ++ address.tail
    | some _ => (if address.front = [] then [[]] else address.front.map Hextet.chars) ++
        [[]] ++ (if address.tail = [] then [[]] else address.tail) := by
  have hall : ∀ piece ∈ address.front.map Hextet.chars ++ address.tail, ':' ∉ piece := by
    intro piece hpiece
    rcases mem_append.1 hpiece with h | h
    · exact address.colon_notMem_front piece h
    · exact address.colon_notMem_tail piece h
  unfold Ipv6Text.body
  cases hback : address.back with
  | none =>
    have hne : address.front.map Hextet.chars ++ address.tail ≠ [] := by
      intro hnil
      obtain ⟨hfront, htail⟩ := append_eq_nil_iff.1 hnil
      have hsize := address.size
      rw [Ipv6Text.tail, hback] at htail
      rw [hback, map_eq_nil_iff.1 hfront, map_eq_nil_iff.1 (append_eq_nil_iff.1 htail).2] at hsize
      cases hsize
    dsimp only
    rw [splitOn_groups hall, if_neg hne]
  | some back =>
    dsimp only
    have hcut : (':' :: [':'].intercalate address.tail).splitOn ':' =
        [[]] ++ ([':'].intercalate address.tail).splitOn ':' := by
      rw [← nil_append (':' :: _), splitOn_append_cons_self]
      rfl
    rw [splitOn_append_cons_self, hcut, splitOn_groups address.colon_notMem_front,
      splitOn_groups address.colon_notMem_tail, append_assoc]
    simp only [map_eq_nil_iff]

theorem doubleColons_append (h : ':' ∉ chars) (rest : List Char) :
    doubleColons (chars ++ rest) = doubleColons rest := by
  induction chars with
  | nil => rfl
  | cons c chars ih =>
    rw [mem_cons, not_or] at h
    obtain ⟨hc, hchars⟩ := h
    rw [cons_append, doubleColons, ih hchars]
    rintro rest rfl -
    exact hc rfl

theorem doubleColons_colon (hc : c ≠ ':') (rest : List Char) :
    doubleColons (':' :: c :: rest) = doubleColons (c :: rest) := by
  rw [doubleColons]
  rintro rest' - h
  exact hc (List.cons.inj h).1

/-- No two separators are next to each other between groups. -/
theorem doubleColons_groups (hcolon : ∀ piece ∈ pieces, ':' ∉ piece)
    (hne : ∀ piece ∈ pieces, piece ≠ []) (rest : List Char) (hpieces : pieces ≠ []) :
    doubleColons ([':'].intercalate pieces ++ rest) = doubleColons rest := by
  induction pieces with
  | nil => exact absurd rfl hpieces
  | cons piece pieces ih =>
    obtain ⟨hpiece, hrest⟩ := forall_mem_cons.1 hcolon
    cases pieces with
    | nil =>
      have hone : [':'].intercalate [piece] = piece := by simp
      rw [hone, doubleColons_append hpiece]
    | cons next pieces =>
      have hnext : ∃ c tail, next = c :: tail ∧ c ≠ ':' := by
        cases hchars : next with
        | nil => exact absurd hchars (hne next (by simp))
        | cons c tail =>
          refine ⟨c, tail, rfl, ?_⟩
          rintro rfl
          exact hrest next mem_cons_self (hchars ▸ mem_cons_self)
      obtain ⟨c, tail, hcons, hc⟩ := hnext
      have hstart : ∃ more, [':'].intercalate (next :: pieces) ++ rest = c :: more := by
        cases pieces with
        | nil => exact ⟨tail ++ rest, by simp [hcons]⟩
        | cons other pieces => exact ⟨_, by rw [intercalate_cons_cons, hcons]; rfl⟩
      obtain ⟨more, hmore⟩ := hstart
      have hbetween : [':'].intercalate (piece :: next :: pieces) ++ rest =
          piece ++ ':' :: ([':'].intercalate (next :: pieces) ++ rest) := by
        simp [intercalate_cons_cons]
      rw [hbetween, doubleColons_append hpiece, hmore, doubleColons_colon hc, ← hmore,
        ih hrest (fun other hother => hne other (mem_cons_of_mem _ hother)) (cons_ne_nil _ _)]

/-! ### Which addresses are valid -/

theorem isHexDigit_of_isDigit (h : c.isDigit = true) :
    isHexDigit c = true := by simp [isHexDigit, h]

theorem Ipv6Text.mem_tail {piece : List Char} (hpiece : piece ∈ address.tail) (hc : c ∈ piece) :
    c = '.' ∨ isHexDigit c = true := by
  rcases mem_append.1 hpiece with h | h
  · obtain ⟨hextet, -, rfl⟩ := mem_map.1 h
    exact Or.inr (hextet.hex c hc)
  · obtain ⟨octets, -, rfl⟩ := mem_map.1 h
    exact (octets.mem_text hc).imp_right isHexDigit_of_isDigit

/-- The segments are the groups, and empty ones. -/
theorem Ipv6Text.mem_splitOn_body {piece : List Char} (h : piece ∈ address.body.splitOn ':') :
    piece = [] ∨ (∃ hextet ∈ address.front, piece = hextet.chars) ∨ piece ∈ address.tail := by
  rw [address.splitOn_body] at h
  cases hback : address.back with
  | none =>
    rw [hback] at h
    rcases mem_append.1 h with h | h
    · obtain ⟨hextet, hmem, rfl⟩ := mem_map.1 h
      exact Or.inr (Or.inl ⟨hextet, hmem, rfl⟩)
    · exact Or.inr (Or.inr h)
  | some back =>
    rw [hback] at h
    rcases mem_append.1 h with h | h
    · rcases mem_append.1 h with h | h
      · split_ifs at h
        · exact Or.inl (mem_singleton.1 h)
        · obtain ⟨hextet, hmem, rfl⟩ := mem_map.1 h
          exact Or.inr (Or.inl ⟨hextet, hmem, rfl⟩)
      · exact Or.inl (mem_singleton.1 h)
    · split_ifs at h
      · exact Or.inl (mem_singleton.1 h)
      · exact Or.inr (Or.inr h)

theorem Ipv6Text.mem_body (h : c ∈ address.body) : c = ':' ∨ c = '.' ∨ isHexDigit c = true := by
  by_cases hcolon : c = ':'
  · exact Or.inl hcolon
  · obtain ⟨piece, hpiece, hc⟩ := mem_splitOn h hcolon
    rcases address.mem_splitOn_body hpiece with rfl | ⟨hextet, -, rfl⟩ | htail
    · cases hc
    · exact Or.inr (Or.inr (hextet.hex c hc))
    · exact Or.inr (address.mem_tail htail hc)

theorem Ipv6Text.two_le_length_splitOn (address : Ipv6Text) :
    2 ≤ (address.body.splitOn ':').length := by
  have hsize := address.size
  rw [address.splitOn_body]
  cases hback : address.back with
  | none =>
    rw [hback] at hsize
    have htail : address.tail.length = address.mapped.toList.length := by
      simp [Ipv6Text.tail, hback]
    simp only [length_append, length_map, htail]
    omega
  | some back =>
    have hfront : 1 ≤ (if address.front = [] then [[]]
        else address.front.map Hextet.chars).length := by
      split_ifs with hnil
      · exact Nat.le_refl 1
      · rw [length_map]
        exact length_pos_of_ne_nil hnil
    simp only [length_append, length_singleton]
    omega

theorem Ipv6Text.colon_mem_body (address : Ipv6Text) : ':' ∈ address.body := by
  by_contra hnone
  have hlength := address.two_le_length_splitOn
  rw [splitOn_eq_singleton hnone] at hlength
  simp at hlength

theorem Ipv6Text.stripBrackets_text (address : Ipv6Text) :
    stripBrackets address.text = address.text := by
  refine if_neg fun h => ?_
  have hne : address.body ≠ [] := ne_nil_of_mem address.colon_mem_body
  rw [Ipv6Text.text, List.head?_append_of_ne_nil _ hne] at h
  rcases address.mem_body (mem_of_mem_head? h.1) with h | h | h
  · exact absurd h (by decide)
  · exact absurd h (by decide)
  · exact absurd h (by decide)

theorem doubleColons_hextets (groups : List Hextet) (rest : List Char) :
    doubleColons ([':'].intercalate (groups.map Hextet.chars) ++ rest) = doubleColons rest := by
  by_cases hnil : groups = []
  · rw [hnil]
    rfl
  · refine doubleColons_groups ?_ ?_ rest fun h => hnil (map_eq_nil_iff.1 h)
    · intro piece hpiece
      obtain ⟨hextet, -, rfl⟩ := mem_map.1 hpiece
      exact hextet.colon_notMem
    · intro piece hpiece
      obtain ⟨hextet, -, rfl⟩ := mem_map.1 hpiece
      exact hextet.ne_nil

theorem Ipv6Text.doubleColons_body (address : Ipv6Text) (hmapped : address.mapped = none) :
    doubleColons address.body ≤ 1 := by
  have hgroups : ∀ groups : List Hextet,
      doubleColons ([':'].intercalate (groups.map Hextet.chars)) = 0 := by
    intro groups
    rw [← append_nil ([':'].intercalate _), doubleColons_hextets]
    rfl
  have htail : address.tail = (address.back.getD []).map Hextet.chars := by
    simp [Ipv6Text.tail, hmapped]
  unfold Ipv6Text.body
  cases hback : address.back with
  | none =>
    rw [htail, hback]
    dsimp only
    rw [Option.getD_none, map_nil, append_nil, hgroups]
    exact Nat.zero_le 1
  | some back =>
    dsimp only
    rw [doubleColons_hextets, doubleColons, htail, hgroups]

theorem Ipv6Text.segments_facts (address : Ipv6Text) (hmapped : address.mapped = none) :
    (address.body.splitOn ':').length ≤ 8 ∧ ∃ piece ∈ address.body.splitOn ':', piece ≠ [] := by
  have hsize := address.size
  have hspecified := address.specified
  have htail : address.tail = (address.back.getD []).map Hextet.chars := by
    simp [Ipv6Text.tail, hmapped]
  rw [address.splitOn_body, htail]
  rw [hmapped] at hsize hspecified
  cases hback : address.back with
  | none =>
    rw [hback] at hsize hspecified
    obtain ⟨hextet, hmem⟩ := exists_mem_of_ne_nil _ (hspecified.resolve_right (by simp))
    refine ⟨?_, hextet.chars, mem_append_left _ (mem_map_of_mem hmem), hextet.ne_nil⟩
    simp only [Option.getD_none, map_nil, append_nil, length_map]
    exact Nat.le_of_eq hsize
  | some back =>
    rw [hback] at hsize hspecified
    have hone : ∀ groups : List Hextet,
        (if groups.map Hextet.chars = [] then [[]] else groups.map Hextet.chars).length =
          max 1 groups.length := by
      intro groups
      cases groups with
      | nil => rfl
      | cons hextet groups =>
        rw [map_cons, if_neg (cons_ne_nil _ _), length_cons, length_map, length_cons]
        omega
    simp only [← map_eq_nil_iff (f := Hextet.chars), Option.getD_some, length_append, hone,
      length_singleton, Option.toList_none, length_nil] at hsize ⊢
    refine ⟨by omega, ?_⟩
    rcases hspecified with hfront | hrest | hnone
    · obtain ⟨hextet, hmem⟩ := exists_mem_of_ne_nil _ hfront
      refine ⟨hextet.chars, mem_append_left _ (mem_append_left _ ?_), hextet.ne_nil⟩
      rw [if_neg fun h => hfront (map_eq_nil_iff.1 h)]
      exact mem_map_of_mem hmem
    · obtain ⟨hextet, hmem⟩ := exists_mem_of_ne_nil _ hrest
      refine ⟨hextet.chars, mem_append_right _ ?_, hextet.ne_nil⟩
      have hback : back.map Hextet.chars ≠ [] := ne_nil_of_mem (mem_map_of_mem hmem)
      rw [if_neg hback]
      exact mem_map_of_mem hmem
    · exact absurd rfl hnone

/-- The validator takes an IPv6 address that has nothing dotted in it and no zone. -/
theorem Ipv6Text.isValidIpv6_text (address : Ipv6Text) :
    isValidIpv6 address.text = true ↔ address.mapped = none ∧ address.zone = none := by
  unfold isValidIpv6
  rw [address.stripBrackets_text]
  simp only [Bool.and_eq_true, all_eq_true, Bool.or_eq_true, decide_eq_true_eq, any_eq_true]
  constructor
  · rintro ⟨⟨⟨⟨⟨-, hchars⟩, -⟩, -⟩, hsegments⟩, -⟩
    have hzone : address.zone = none := by
      cases hzone : address.zone with
      | none => rfl
      | some chars =>
        have hmem : '%' ∈ address.text := by simp [Ipv6Text.text, hzone]
        exact absurd (hchars '%' hmem) (by decide)
    refine ⟨?_, hzone⟩
    by_contra hmapped
    obtain ⟨octets, hoctets⟩ := Option.ne_none_iff_exists'.1 hmapped
    have htext : address.text = address.body := by simp [Ipv6Text.text, hzone]
    have htail : octets.text ∈ address.tail := by simp [Ipv6Text.tail, hoctets]
    have hmem : octets.text ∈ address.text.splitOn ':' := by
      rw [htext, address.splitOn_body]
      cases address.back with
      | none => exact mem_append_right _ htail
      | some back =>
        dsimp only
        rw [if_neg (ne_nil_of_mem htail)]
        exact mem_append_right _ htail
    have hdot : '.' ∈ octets.text := by simp [Octets.text, Octets.list, intercalate_cons_cons]
    rcases hsegments _ hmem with hempty | ⟨-, hhex⟩
    · rw [List.isEmpty_iff.1 hempty] at hdot
      cases hdot
    · exact absurd (hhex '.' hdot) (by decide)
  · rintro ⟨hmapped, hzone⟩
    have htext : address.text = address.body := by simp [Ipv6Text.text, hzone]
    obtain ⟨hlength, piece, hpiece, hne⟩ := address.segments_facts hmapped
    have htail : ∀ piece ∈ address.tail, ∃ hextet : Hextet, piece = hextet.chars := by
      intro piece hpiece
      rw [Ipv6Text.tail, hmapped, Option.toList_none, map_nil, append_nil] at hpiece
      obtain ⟨hextet, -, rfl⟩ := mem_map.1 hpiece
      exact ⟨hextet, rfl⟩
    have hgroup : ∀ piece ∈ address.body.splitOn ':', piece = [] ∨
        ∃ hextet : Hextet, piece = hextet.chars := by
      intro piece hpiece
      rcases address.mem_splitOn_body hpiece with hnil | ⟨hextet, -, rfl⟩ | h
      · exact Or.inl hnil
      · exact Or.inr ⟨hextet, rfl⟩
      · exact Or.inr (htail piece h)
    rw [htext]
    refine ⟨⟨⟨⟨⟨by simpa using address.colon_mem_body, fun c hc => ?_⟩, ?_⟩, hlength⟩,
      fun segment hsegment => ?_⟩,
      piece, hpiece, by simpa using hne⟩
    · rcases address.mem_body hc with h | h | h <;> simp [h]
    · have hdouble := address.doubleColons_body hmapped
      omega
    · rcases hgroup segment hsegment with rfl | ⟨hextet, rfl⟩
      · exact Or.inl rfl
      · exact Or.inr ⟨hextet.size.2, hextet.hex⟩

/-- No IPv6 address is a dotted one. -/
theorem Ipv6Text.isValidIpv4_text (address : Ipv6Text) : isValidIpv4 address.text = false := by
  rw [Bool.eq_false_iff]
  intro hvalid
  simp only [isValidIpv4, Bool.and_eq_true, all_eq_true] at hvalid
  have hmem : ':' ∈ address.text := mem_append_left _ address.colon_mem_body
  obtain ⟨piece, hpiece, hcolon⟩ := mem_splitOn hmem (show ':' ≠ '.' by decide)
  have hoctet := hvalid.2 piece hpiece
  simp only [isOctet, Bool.and_eq_true, all_eq_true] at hoctet
  exact absurd (hoctet.1.2 ':' hcolon) (by decide)

/-- **Which addresses of a peer are taken for addresses.** -/
theorem isValidIpAddress_iff : isValidIpAddress peer.text = true ↔ peer.Plain := by
  cases peer with
  | ipv4 octets =>
    exact iff_of_true (by rw [isValidIpAddress, PeerAddress.text, octets.isValidIpv4_text]; rfl)
      trivial
  | ipv6 address =>
    rw [isValidIpAddress, PeerAddress.text, address.isValidIpv4_text, Bool.false_or]
    exact address.isValidIpv6_text

/-! ### What becomes of the text -/

theorem isRegexSpace_of_mem_text {peer : PeerAddress} (h : c ∈ peer.text) :
    isRegexSpace c = false := by
  cases peer with
  | ipv4 octets =>
    rcases octets.mem_text h with rfl | hdigit
    · decide
    · exact isRegexSpace_of_isHexDigit (isHexDigit_of_isDigit hdigit)
  | ipv6 address =>
    rcases mem_append.1 h with hbody | hzone
    · rcases address.mem_body hbody with rfl | rfl | hhex
      · decide
      · decide
      · exact isRegexSpace_of_isHexDigit hhex
    · cases hchars : address.zone with
      | none =>
        rw [hchars] at hzone
        cases hzone
      | some chars =>
        rw [hchars] at hzone
        rcases mem_cons.1 hzone with rfl | hc
        · decide
        · exact address.zoned chars hchars c hc

theorem stripBrackets_text : stripBrackets peer.text = peer.text := by
  cases peer with
  | ipv4 octets =>
    refine if_neg fun h => ?_
    rcases octets.mem_text (mem_of_mem_head? h.1) with hdot | hdigit
    · exact absurd hdot (by decide)
    · exact absurd hdigit (by decide)
  | ipv6 address => exact address.stripBrackets_text

theorem text_ne_nil : peer.text ≠ [] := by
  cases peer with
  | ipv4 octets =>
    have hdot : '.' ∈ octets.text := by simp [Octets.text, Octets.list, intercalate_cons_cons]
    exact ne_nil_of_mem hdot
  | ipv6 address => exact ne_nil_of_mem (mem_append_left _ address.colon_mem_body)

theorem normalizeIpAddress_text : normalizeIpAddress (some (String.ofList peer.text)) =
    if isValidIpAddress peer.text then some (String.ofList peer.text) else none := by
  have htrimmed : trimText (String.ofList peer.text) = String.ofList peer.text := by
    refine trimText_eq_self ⟨fun c hc => ?_, fun c hc => ?_⟩
    · rw [String.toList_ofList] at hc
      exact isRegexSpace_of_mem_text (mem_of_mem_head? hc)
    · rw [String.toList_ofList] at hc
      exact isRegexSpace_of_mem_text (mem_of_mem_getLast? hc)
  have hne : peer.text.isEmpty = false := by simpa using text_ne_nil peer
  simp only [normalizeIpAddress, Option.map_some, htrimmed, String.toList_ofList,
    Option.filter_some, hne, Bool.not_false, Bool.true_and]
  split_ifs
  · rw [Option.map_some, stripBrackets_text]
  · rfl

theorem digits_127 :
    ∀ octet : Fin 256, Nat.toDigits 10 octet.val = ['1', '2', '7'] → octet = 127 := by
  decide +kernel

/-- The two texts that are trusted are those of loopback addresses. -/
theorem isLoopback_of_mem {peer : PeerAddress} (hplain : peer.Plain)
    (hmem : String.ofList peer.text ∈ loopbackPeerIps) : peer.IsLoopback := by
  have htexts : peer.text = ['1', '2', '7', '.', '0', '.', '0', '.', '1'] ∨
      peer.text = [':', ':', '1'] := by
    simp only [loopbackPeerIps, mem_cons, not_mem_nil, or_false] at hmem
    refine hmem.imp (fun h => ?_) fun h => ?_
    · simpa using congrArg String.toList h
    · simpa using congrArg String.toList h
  cases peer with
  | ipv4 octets =>
    rcases htexts with htext | htext
    · have hsplit := octets.splitOn_text
      rw [show octets.text = _ from htext] at hsplit
      exact digits_127 octets.a (List.cons.inj hsplit.symm).1
    · have hcolon : ':' ∈ octets.text := by
        rw [show octets.text = _ from htext]
        exact mem_cons_self
      exact absurd hcolon octets.colon_notMem
  | ipv6 address =>
    have hbody : address.text = address.body := by simp [Ipv6Text.text, hplain.2]
    have hsplit := address.splitOn_body
    rw [← hbody] at hsplit
    rcases htexts with htext | htext
    · have hcolon := address.colon_mem_body
      rw [← hbody, show address.text = _ from htext] at hcolon
      exact absurd hcolon (by decide)
    · rw [show address.text = _ from htext,
        show [':', ':', '1'].splitOn ':' = [[], [], ['1']] by decide] at hsplit
      have hsize := address.size
      have htail : address.tail = (address.back.getD []).map Hextet.chars := by
        simp [Ipv6Text.tail, hplain.1]
      cases hback : address.back with
      | none =>
        rw [hback, hplain.1] at hsize
        rw [hback, htail, hback] at hsplit
        have hlength := congrArg List.length hsplit
        simp at hlength hsize
        omega
      | some back =>
        rw [hback, htail, hback] at hsplit
        dsimp only [Option.getD_some] at hsplit
        have hfront : address.front = [] := by
          cases hfront : address.front with
          | nil => rfl
          | cons hextet front =>
            rw [hfront, if_neg (cons_ne_nil _ _)] at hsplit
            exact absurd (List.cons.inj hsplit).1.symm hextet.ne_nil
        rw [hfront, if_pos rfl] at hsplit
        have hrest : (if back.map Hextet.chars = [] then [[]]
            else back.map Hextet.chars) = [['1']] :=
          (List.cons.inj (List.cons.inj hsplit).2).2.symm
        obtain ⟨hextet, rfl, hone⟩ : ∃ hextet : Hextet, back = [hextet] ∧ hextet.chars = ['1'] := by
          match back with
          | [] => cases hrest
          | [hextet] => exact ⟨hextet, rfl, (List.cons.inj hrest).1⟩
          | _ :: _ :: _ => cases (List.cons.inj hrest).2
        have hvalue : hextetValue hextet = 1 := by
          rw [hextetValue, hone]
          decide
        refine Or.inl ?_
        simp only [Ipv6Text.groups, hback, hfront, hplain.1, Option.getD_some, map_cons, map_nil,
          hvalue, Option.toList_none, flatMap_nil]
        rfl

end Texts

/-! ## Requests -/

/-- **The headers are ignored exactly where the address of the peer is plain.** Of a peer that is
not loopback, no header of a proxy changes whom a request counts against, which is never the bucket
of all unknown callers, if and only if the text of its address has nothing dotted in groups and no
zone. -/
theorem client_ip_ignores_headers_iff (host : RateLimitHost) (orbEnrollmentSecret : Option String)
    (peer : PeerAddress) (hloopback : ¬peer.IsLoopback) :
    (∀ (request : RateLimitRequest) (cfConnectingIp xForwardedFor : Option String),
      let env : RateLimitEnv := ⟨some (String.ofList peer.text), orbEnrollmentSecret⟩
      let other := { request with cfConnectingIp := cfConnectingIp, xForwardedFor := xForwardedFor }
      clientIp env other = clientIp env request ∧
        rateLimitIdentity host env other = rateLimitIdentity host env request ∧
        clientIp env request ≠ "unknown-ip") ↔ peer.Plain := by
  constructor
  · intro h
    by_contra hplain
    have hnone : normalizeIpAddress (some (String.ofList peer.text)) = none := by
      rw [normalizeIpAddress_text,
        if_neg fun hvalid => hplain ((isValidIpAddress_iff peer).1 hvalid)]
    refine (h ⟨"/", none, none, none, none, none⟩ none none).2.2 ?_
    rw [clientIp, hnone]
    rfl
  · intro hplain request cfConnectingIp xForwardedFor env other
    have hpeer : normalizeIpAddress env.peerIp = some (String.ofList peer.text) := by
      rw [normalizeIpAddress_text, if_pos ((isValidIpAddress_iff peer).2 hplain)]
    have huntrusted : ¬loopbackPeerIps.contains (String.ofList peer.text) = true := by
      rw [contains_iff_mem]
      exact fun hmem => hloopback (isLoopback_of_mem hplain hmem)
    have hip : ∀ request, clientIp env request = String.ofList peer.text := by
      intro request
      rw [clientIp, hpeer]
      exact if_neg huntrusted
    refine ⟨?_, ?_, ?_⟩
    · rw [hip, hip]
    · unfold rateLimitIdentity
      rw [hip, hip]
      rfl
    · rw [hip]
      intro hunknown
      have htext : peer.text = "unknown-ip".toList := by
        rw [← hunknown, String.toList_ofList]
      have hvalid := (isValidIpAddress_iff peer).2 hplain
      rw [htext] at hvalid
      exact absurd hvalid (by decide +kernel)

def hextetFfff : Hextet := ⟨['f', 'f', 'f', 'f'], by decide, all_eq_true.1 (by decide)⟩

/-- `::ffff:203.0.113.7`, a caller on the internet as a dual-stack listener reports it. -/
def mappedPeer : PeerAddress :=
  .ipv6 ⟨[], some [hextetFfff], some ⟨203, 0, 113, 7⟩, none, by decide, by simp, by simp⟩

def sampleRateLimitHost : RateLimitHost := ⟨id, fun _ => "", fun _ => none, fun _ => false⟩

/-- A caller that is reported as `203.0.113.7`. -/
theorem client_ip_ignores_headers_dotted :
    clientIp ⟨some "203.0.113.7", none⟩ ⟨"/", some "198.51.100.1", none, none, none, none⟩ =
      clientIp ⟨some "203.0.113.7", none⟩ ⟨"/", none, none, none, none, none⟩ := by
  have hlaw := (client_ip_ignores_headers_iff sampleRateLimitHost none (.ipv4 ⟨203, 0, 113, 7⟩)
    (fun h => absurd (show (203 : Fin 256) = 127 from h) (by decide))).2 trivial
  exact (hlaw ⟨"/", none, none, none, none, none⟩ (some "198.51.100.1") none).1

/-- With a header the caller chooses its bucket, and without one it is in that of all unknown
callers. -/
theorem mapped_peer_spoofed :
    mappedPeer.text = "::ffff:203.0.113.7".toList ∧ ¬mappedPeer.IsLoopback ∧
      clientIp ⟨some (String.ofList mappedPeer.text), none⟩ ⟨"/", some "198.51.100.1", none, none,
        none, none⟩ =
        "198.51.100.1" ∧
      clientIp ⟨some (String.ofList mappedPeer.text), none⟩ ⟨"/", some "198.51.100.2", none, none,
        none, none⟩ =
        "198.51.100.2" ∧
      clientIp ⟨some (String.ofList mappedPeer.text), none⟩ ⟨"/", none, none, none, none, none⟩ =
        "unknown-ip" := by
  refine ⟨by decide +kernel, ?_, by decide +kernel, by decide +kernel, by decide +kernel⟩
  rintro (h | ⟨-, h⟩)
  · exact absurd h (by decide +kernel)
  · exact absurd h (by decide +kernel)

end LoopOver.RateLimit
