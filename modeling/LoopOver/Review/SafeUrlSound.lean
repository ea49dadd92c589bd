import LoopOver.Review.SafeUrl

/-!
# The guard lets no private address through

The guard looks at texts: at dotted numbers, and at the groups of an address of which the zeros are
left out. The ranges are about numbers. Each range fixes the first digits that the parser writes,
and so it is found.

* `Block` is a range of addresses, and `privateBlocks` has the IPv4 ones.
* `Host.PrivateOrLocal` is what must not be reached.
* `ipv4ToInt_text` and `ipv4IsPrivateOrLocal_text` are about dotted addresses;
  `ipv6IsPrivateOrLocal_embedded` is about the IPv4 addresses in IPv6 ones.
* **`safe_url_guard`**: no such host passes, and every other IPv4 address does over https.
-/

namespace LoopOver.SafeUrl

open HostText (Ipv6 Piece hex hexText IsHexLower)
open RateLimit (Octets)
open List

/-! ## Ranges -/

def addressValue (address : Octets) : ℕ :=
  address.a.val * 2 ^ 24 + address.b.val * 2 ^ 16 + address.c.val * 2 ^ 8 + address.d.val

/-- The addresses with the same first bits. -/
structure Block where
  net : Octets
  bits : ℕ

def Block.Contains (block : Block) (address : Octets) : Prop :=
  addressValue address / 2 ^ (32 - block.bits) = addressValue block.net / 2 ^ (32 - block.bits)

def privateBlocks : List Block :=
  [⟨⟨0, 0, 0, 0⟩, 8⟩, ⟨⟨10, 0, 0, 0⟩, 8⟩, ⟨⟨127, 0, 0, 0⟩, 8⟩, ⟨⟨169, 254, 0, 0⟩, 16⟩,
    ⟨⟨172, 16, 0, 0⟩, 12⟩,
    ⟨⟨192, 168, 0, 0⟩, 16⟩, ⟨⟨100, 64, 0, 0⟩, 10⟩]

def PrivateIpv4 (address : Octets) : Prop := ∃ block ∈ privateBlocks, block.Contains address

/-- The IPv4 address in two pieces. -/
def embedded (hi lo : Piece) : Octets :=
  ⟨⟨hi.val / 256, by omega⟩, ⟨hi.val % 256, by omega⟩, ⟨lo.val / 256, by omega⟩,
    ⟨lo.val % 256, by omega⟩⟩

/-- The address begins with the bits of the piece. -/
def BeginsWith (address : Ipv6) (net : Piece) (bits : ℕ) : Prop :=
  ∃ piece ∈ address.pieces.head?, piece.val / 2 ^ (16 - bits) = net.val / 2 ^ (16 - bits)

inductive PrivateIpv6 (address : Ipv6) : Prop
  | unspecified (h : address.pieces = [0, 0, 0, 0, 0, 0, 0, 0])
  | loopback (h : address.pieces = [0, 0, 0, 0, 0, 0, 0, 1])
  | uniqueLocal (h : BeginsWith address 0xfc00 7)
  | linkLocal (h : BeginsWith address 0xfe80 10)
  | mapped (hi lo : Piece) (h : address.pieces = [0, 0, 0, 0, 0, 0xffff, hi, lo])
      (hprivate : PrivateIpv4 (embedded hi lo))
  | compatible (hi lo : Piece) (h : address.pieces = [0, 0, 0, 0, 0, 0, hi, lo]) (hne : hi ≠ 0)
      (hprivate : PrivateIpv4 (embedded hi lo))

/-- The name without its trailing dots. -/
def Domain.trimmed (domain : Domain) : List Char := domain.name.rdropWhile (· == '.')

def Domain.Local (domain : Domain) : Prop :=
  domain.trimmed = "localhost".toList ∨ ".localhost".toList <:+ domain.trimmed ∨
    ".local".toList <:+ domain.trimmed ∨
    ".internal".toList <:+ domain.trimmed

def Host.PrivateOrLocal : Host → Prop
  | .ipv4 address => PrivateIpv4 address
  | .ipv6 address => PrivateIpv6 address
  | .domain named => named.Local

/-! ## Dotted addresses -/

section Dotted

variable {address : Octets}

theorem octet_parse :
    ∀ octet : Fin 256, parseIpv4Component (Nat.toDigits 10 octet.val) = some octet.val := by
  decide +kernel

theorem ipv4ToInt_text (address : Octets) :
    ipv4ToInt address.text = some (addressValue address) := by
  obtain ⟨a, b, c, d⟩ := address
  have hmapM : ([a, b, c, d].map fun octet => Nat.toDigits 10 octet.val).mapM parseIpv4Component =
      some [a.val, b.val, c.val, d.val] := by
    simp [octet_parse]
  have hsmall : ([a.val, b.val, c.val].any fun value => 0xff < value) = false := by
    simp only [any_cons, any_nil, Bool.or_false, Bool.or_eq_false_iff, decide_eq_false_iff_not,
      not_lt]
    omega
  have hsum : d.val +
      (([a.val, b.val, c.val].zipIdx.map fun entry => entry.1 * 256 ^ (3 - entry.2)).sum) =
      addressValue ⟨a, b, c, d⟩ := by
    simp [addressValue]
    omega
  have hle : addressValue ⟨a, b, c, d⟩ ≤ 0xffffffff := by
    simp only [addressValue]
    omega
  have hlast : ¬lastMax [a.val, b.val, c.val].length < d.val := by
    simp only [lastMax, length_cons, length_nil, getD_cons_succ, getD_cons_zero]
    omega
  rw [ipv4ToInt, Octets.splitOn_text]
  simp only [Octets.list, hmapM, Option.bind_eq_bind, Option.bind_some]
  rw [if_neg (by simp)]
  show (if ([a.val, b.val, c.val].any fun value => 0xff < value) = true then none
    else if lastMax [a.val, b.val, c.val].length < d.val then none
    else if 0xffffffff < d.val +
      (([a.val, b.val, c.val].zipIdx.map fun entry => entry.1 * 256 ^ (3 - entry.2)).sum) then none
    else some (d.val +
      (([a.val, b.val, c.val].zipIdx.map fun entry => entry.1 * 256 ^ (3 - entry.2)).sum))) = _
  rw [hsmall, if_neg Bool.false_ne_true, if_neg hlast, hsum, if_neg (not_lt.2 hle)]

/-- The first bits of an address, for the sizes of the blocks. -/
theorem addressValue_div (address : Octets) : addressValue address / 2 ^ 24 = address.a.val ∧
    addressValue address / 2 ^ 22 = 4 * address.a.val + address.b.val / 64 ∧
    addressValue address / 2 ^ 20 = 16 * address.a.val + address.b.val / 16 ∧
    addressValue address / 2 ^ 16 = 256 * address.a.val + address.b.val := by
  have hc := address.c.isLt
  have hd := address.d.isLt
  unfold addressValue
  refine ⟨?_, ?_, ?_, ?_⟩ <;> omega

theorem privateIpv4_iff :
    PrivateIpv4 address ↔ address.a.val = 0 ∨ address.a.val = 10 ∨ address.a.val = 127 ∨
    (address.a.val = 169 ∧ address.b.val = 254) ∨
      (address.a.val = 172 ∧ 16 ≤ address.b.val ∧ address.b.val ≤ 31) ∨
    (address.a.val = 192 ∧ address.b.val = 168) ∨
    (address.a.val = 100 ∧ 64 ≤ address.b.val ∧ address.b.val ≤ 127) := by
  have hdiv := addressValue_div
  have hb := address.b.isLt
  have h169 : 256 * address.a.val + address.b.val = 43518 ↔
      address.a.val = 169 ∧ address.b.val = 254 := by omega
  have h172 : 16 * address.a.val + address.b.val / 16 = 2753 ↔
      address.a.val = 172 ∧ 16 ≤ address.b.val ∧ address.b.val ≤ 31 := by omega
  have h192 : 256 * address.a.val + address.b.val = 49320 ↔
      address.a.val = 192 ∧ address.b.val = 168 := by omega
  have h100 : 4 * address.a.val + address.b.val / 64 = 401 ↔
      address.a.val = 100 ∧ 64 ≤ address.b.val ∧ address.b.val ≤ 127 := by omega
  rw [← h169, ← h172, ← h192, ← h100]
  simp only [PrivateIpv4, privateBlocks, Block.Contains, mem_cons, not_mem_nil, or_false,
    exists_eq_or_imp, exists_eq_left, Nat.reduceSub, (hdiv _).1, (hdiv _).2.1, (hdiv _).2.2.1,
    (hdiv _).2.2.2]
  rfl

theorem ipv4IsPrivateOrLocal_text (address : Octets) :
    ipv4IsPrivateOrLocal address.text = true ↔ PrivateIpv4 address := by
  obtain ⟨hfirst, -, -, hsecond⟩ := addressValue_div address
  have ha : addressValue address / 2 ^ 24 % 256 = address.a.val := by omega
  have hb : addressValue address / 2 ^ 16 % 256 = address.b.val := by omega
  rw [ipv4IsPrivateOrLocal, ipv4ToInt_text, privateIpv4_iff]
  simp only [ha, hb, Bool.if_true_left, Bool.or_eq_true, Bool.and_eq_true, beq_iff_eq,
    decide_eq_true_eq, and_assoc, or_assoc]
  rw [or_left_comm (a := address.a.val = 192 ∧ address.b.val = 168)]

end Dotted

/-! ## Embedded addresses -/

variable {text : List Char}

section Embedded

variable {hi lo : Piece} {address : Ipv6}

theorem colon_not_mem_hex (piece : Piece) : ':' ∉ hex piece := fun h =>
  absurd (HostText.isHexLower_of_mem_toDigits _ _ h) (by decide)

theorem embeddedText_hex (hi lo : Piece) :
    embeddedText (hexText (hex hi)) (hexText (hex lo)) = (embedded hi lo).text := by
  rw [hex, hex, HostText.hexText_toDigits, HostText.hexText_toDigits]
  have hhi : hi.val / 256 % 256 = hi.val / 256 := Nat.mod_eq_of_lt (by omega)
  have hlo : lo.val / 256 % 256 = lo.val / 256 := Nat.mod_eq_of_lt (by omega)
  simp [embeddedText, byteText, embedded, Octets.text, Octets.list, hhi, hlo]

theorem isHexGroup_hex (piece : Piece) : isHexGroup (hex piece) = true := by
  obtain ⟨hpos, hle⟩ := HostText.length_hex piece
  rw [isHexGroup, Bool.and_eq_true, Bool.and_eq_true, decide_eq_true_eq, decide_eq_true_eq,
    all_eq_true]
  exact ⟨⟨hpos, hle⟩, fun c hc => decide_eq_true (HostText.isHexLower_of_mem_toDigits _ c hc)⟩

theorem twoGroups_hex (hi lo : Piece) :
    twoGroups (hex hi ++ ':' :: hex lo) = some (hex hi, hex lo) := by
  have hsplit : (hex hi ++ ':' :: hex lo).splitOn ':' = [hex hi, hex lo] := by
    have hjoin : hex hi ++ ':' :: hex lo = [':'].intercalate [hex hi, hex lo] := by simp
    rw [hjoin]
    exact splitOn_intercalate ':' (by simp [colon_not_mem_hex]) (by simp)
  rw [twoGroups, hsplit]
  simp [isHexGroup_hex]

/-- A text without dots has no dotted address. -/
theorem dottedMapped_eq_none (h : '.' ∉ text) : dottedMapped text = none := by
  induction text with
  | nil => rfl
  | cons c rest ih =>
    have hquad : isDottedQuad ((c :: rest).drop 7) = false := by
      have hdot : '.' ∉ (c :: rest).drop 7 := fun hmem => h (mem_of_mem_drop hmem)
      rw [isDottedQuad, splitOn_eq_singleton hdot]
      rfl
    rw [dottedMapped, hquad, Bool.and_false, if_neg Bool.false_ne_true]
    exact ih fun hmem => h (mem_cons_of_mem _ hmem)

theorem stripBrackets_text (address : Ipv6) :
    stripBrackets (Host.ipv6 address).text = address.serialize := by
  simp [stripBrackets, Host.text]

theorem dot_not_mem_serialize (address : Ipv6) : '.' ∉ address.serialize := by
  intro h
  rcases HostText.Ipv6.mem_serialize h with hcolon | hhex
  · exact absurd hcolon (by decide)
  · exact absurd hhex (by decide)

/-- What the guard asks of an IPv6 address that is neither `::` nor `::1`. -/
theorem ipv6IsPrivateOrLocal_text (hcolon : ':' ∈ address.serialize)
    (hunspecified : address.serialize ≠ "::".toList)
    (hloopback : address.serialize ≠ "::1".toList) :
    ipv6IsPrivateOrLocal (Host.ipv6 address).text =
    match hexGroups address.serialize with
    | some (hi, lo) => ipv4IsPrivateOrLocal (embeddedText (hexText hi) (hexText lo))
    | none =>
      let first := address.serialize.takeWhile (· != ':')
      if ['f', 'c'].isPrefixOf first || ['f', 'd'].isPrefixOf first then true
        else isLinkLocal first := by
  have hcontains : (!address.serialize.contains ':') = false := by simp [hcolon]
  have hshort : (address.serialize == "::1".toList ||
      address.serialize == "::".toList) = false := by
    simp only [Bool.or_eq_false_iff, beq_eq_false_iff_ne]
    exact ⟨hloopback, hunspecified⟩
  have hdotted := dottedMapped_eq_none (dot_not_mem_serialize address)
  cases hgroups : hexGroups address.serialize <;>
    simp only [ipv6IsPrivateOrLocal, stripBrackets_text, hdotted, hcontains, hshort, hgroups,
      Bool.false_eq_true, if_false]

theorem takeWhile_group {group : List Char} (h : ':' ∉ group) (rest : List Char) :
    (group ++ ':' :: rest).takeWhile (· != ':') = group := by
  rw [takeWhile_append_of_pos fun c hc => by simpa using fun heq : c = ':' => h (heq ▸ hc)]
  simp

theorem hexGroups_mapped (hi lo : Piece) :
    hexGroups ("::ffff:".toList ++ hex hi ++ ':' :: hex lo) = some (hex hi, hex lo) := by
  simp [hexGroups, twoGroups_hex, List.isPrefixOf]

/-- Without the marker, two groups are read all the same: behind `ffff:` there is only one more. -/
theorem hexGroups_compatible (hi lo : Piece) :
    hexGroups ([':', ':'] ++ hex hi ++ ':' :: hex lo) = some (hex hi, hex lo) := by
  have hmapped : (if "ffff:".toList.isPrefixOf (hex hi ++ ':' :: hex lo) then
      twoGroups ((hex hi ++ ':' :: hex lo).drop 5) else none) = none := by
    split
    · next hprefix =>
      obtain ⟨rest, hrest⟩ := isPrefixOf_iff_prefix.1 hprefix
      have hgroup : ['f', 'f', 'f', 'f'] = hex hi := by
        rw [← takeWhile_group (colon_not_mem_hex hi) (hex lo), ← hrest]
        rfl
      have hdrop : (hex hi ++ ':' :: hex lo).drop 5 = hex lo := by rw [← hgroup]; rfl
      rw [hdrop, twoGroups, splitOn_eq_singleton (colon_not_mem_hex lo)]
    · rfl
  have hprefix : [':', ':'].isPrefixOf ([':', ':'] ++ hex hi ++ ':' :: hex lo) = true := by
    simp [List.isPrefixOf]
  have hrest : ([':', ':'] ++ hex hi ++ ':' :: hex lo).drop 2 = hex hi ++ ':' :: hex lo := by simp
  rw [hexGroups, if_pos hprefix, hrest]
  simp only [hmapped, twoGroups_hex]
  rfl

theorem ipv6IsPrivateOrLocal_groups
    (hserialize : hexGroups address.serialize = some (hex hi, hex lo))
    (hprivate : PrivateIpv4 (embedded hi lo)) :
    ipv6IsPrivateOrLocal (Host.ipv6 address).text = true := by
  have hcolons : [':', ':'] <+: address.serialize ∧ address.serialize ≠ [':', ':'] ∧
      address.serialize ≠ [':', ':', '1'] := by
    refine ⟨?_, ?_, ?_⟩
    · rw [← isPrefixOf_iff_prefix]
      by_contra hnot
      rw [hexGroups, if_neg hnot] at hserialize
      cases hserialize
    · intro heq
      rw [heq, show hexGroups [':', ':'] = none by decide] at hserialize
      cases hserialize
    · intro heq
      rw [heq, show hexGroups [':', ':', '1'] = none by decide] at hserialize
      cases hserialize
  rw [ipv6IsPrivateOrLocal_text (hcolons.1.subset (by simp)) hcolons.2.1 hcolons.2.2, hserialize]
  simp only
  rw [embeddedText_hex, ipv4IsPrivateOrLocal_text]
  exact hprivate

/-- The first digits of a block. -/
theorem ipv6IsPrivateOrLocal_head {piece : Piece} (hhead : piece ∈ address.pieces.head?)
    (h : 0xfc00 ≤ piece.val ∧ piece.val < 0xfe00 ∨ 0xfe80 ≤ piece.val ∧ piece.val < 0xfec0) :
    ipv6IsPrivateOrLocal (Host.ipv6 address).text = true := by
  have hne : piece ≠ 0 := by
    rintro rfl
    simp at h
  obtain ⟨rest, hserialize⟩ := HostText.serialize_of_head_ne_zero address hhead hne
  have hdigits := HostText.hex_fourDigits piece (by omega)
  have hf : Nat.digitChar (piece.val / 4096) = 'f' := by
    rw [show piece.val / 4096 = 15 by omega]
    rfl
  have hgroups : hexGroups address.serialize = none := by
    rw [hserialize, hdigits, hf]
    rfl
  have hfirst : address.serialize.takeWhile (· != ':') = hex piece := by
    rw [hserialize, takeWhile_group (colon_not_mem_hex piece)]
  rw [ipv6IsPrivateOrLocal_text, hgroups]
  · simp only [hfirst, hdigits, hf]
    rcases h with h | h
    · rcases (by omega : piece.val / 256 % 16 = 12 ∨ piece.val / 256 % 16 = 13) with hd |
        hd <;> rw [hd] <;> rfl
    · rw [show piece.val / 256 % 16 = 14 by omega]
      rcases (by omega : piece.val / 16 % 16 = 8 ∨ piece.val / 16 % 16 = 9 ∨
        piece.val / 16 % 16 = 10 ∨
        piece.val / 16 % 16 = 11) with hd | hd | hd | hd <;> rw [hd] <;> rfl
  · rw [hserialize]
    simp
  · rw [hserialize, hdigits, hf]
    simp
  · rw [hserialize, hdigits, hf]
    simp

theorem ipv6IsPrivateOrLocal_of_private (h : PrivateIpv6 address) :
    ipv6IsPrivateOrLocal (Host.ipv6 address).text = true := by
  obtain ⟨pieces, hsize⟩ := address
  cases h with
  | unspecified h =>
    obtain rfl : pieces = _ := h
    rfl
  | loopback h =>
    obtain rfl : pieces = _ := h
    rfl
  | uniqueLocal h =>
    obtain ⟨piece, hhead, hbits⟩ := h
    exact ipv6IsPrivateOrLocal_head hhead (by simp at hbits; omega)
  | linkLocal h =>
    obtain ⟨piece, hhead, hbits⟩ := h
    exact ipv6IsPrivateOrLocal_head hhead (by simp at hbits; omega)
  | mapped hi lo h hprivate =>
    obtain rfl : pieces = _ := h
    exact ipv6IsPrivateOrLocal_groups (by rw [HostText.serialize_mapped, hexGroups_mapped]) hprivate
  | compatible hi lo h hne hprivate =>
    obtain rfl : pieces = _ := h
    exact ipv6IsPrivateOrLocal_groups (by rw [HostText.serialize_compatible hi lo hne,
      hexGroups_compatible]) hprivate

end Embedded

/-! ## Hosts -/

section Hosts

variable {address : Octets}

theorem toLower_eq_of_range {c : Char} (h : c.toNat < 65 ∨ 90 < c.toNat) : c.toLower = c := by
  rw [← Char.toNat_inj, toNat_toLower, if_neg (by omega)]

theorem map_toLower_eq (h : ∀ c ∈ text, c.toNat < 65 ∨ 90 < c.toNat) :
    text.map Char.toLower = text := by
  rw [map_congr_left fun c hc => toLower_eq_of_range (h c hc), map_id']

/-- The host is the text itself if that is in lower case and does not end in a dot. -/
theorem normalize_eq (hlower : text.map Char.toLower = text)
    (hlast : ∀ c ∈ text.getLast?, c ≠ '.') :
    (text.map Char.toLower).rdropWhile (· == '.') = text := by
  rw [hlower, rdropWhile_eq_self_iff]
  intro hne
  simpa using hlast _ (List.getLast?_eq_some_getLast hne)

theorem normalize_ipv4 (address : Octets) :
    (address.text.map Char.toLower).rdropWhile (· == '.') = address.text := by
  refine normalize_eq (map_toLower_eq fun c hc => ?_) fun c hc => ?_
  · rcases address.mem_text hc with rfl | hdigit
    · exact Or.inl (by decide)
    · rw [Char.isDigit, Bool.and_eq_true, decide_eq_true_eq, decide_eq_true_eq] at hdigit
      have hle : c.toNat ≤ 57 := hdigit.2
      exact Or.inl (by omega)
  · have hend : address.text.getLast? = (Nat.toDigits 10 address.d.val).getLast? := by
      simp [Octets.text, Octets.list, List.getLast?_append, List.getLast?_cons]
      rw [List.getLast?_eq_some_getLast Nat.toDigits_ne_nil]
      rfl
    rw [hend] at hc
    have hdigit := all_eq_true.1 (RateLimit.octet_facts address.d).2 c (mem_of_getLast? hc)
    rintro rfl
    exact absurd hdigit (by decide)

/-- A text with another character than digits and dots does not stand in a dotted address. -/
theorem not_infix_text (address : Octets) {c : Char} (hc : (c == '.' || c.isDigit) = false)
    {part : List Char} (hpart : c ∈ part) : ¬part <:+ address.text := by
  intro hsuffix
  rw [Bool.or_eq_false_iff, beq_eq_false_iff_ne] at hc
  rcases address.mem_text (hsuffix.subset hpart) with hdot | hdigit
  · exact hc.1 hdot
  · exact absurd (hc.2.symm.trans hdigit) Bool.false_ne_true

theorem hostIsPrivateOrLocal_ipv4 (address : Octets) :
    hostIsPrivateOrLocal (Host.ipv4 address).text = true ↔ PrivateIpv4 address := by
  have hnamed (name : List Char) (c : Char) (hmem : c ∈ name)
      (hc : (c == '.' || c.isDigit) = false) :
      endsWith name address.text = false ∧ (address.text == name) = false := by
    rw [endsWith, Bool.eq_false_iff, Ne, isSuffixOf_iff_suffix, beq_eq_false_iff_ne]
    exact ⟨not_infix_text address hc hmem, fun heq =>
      not_infix_text address hc hmem (heq ▸ suffix_rfl)⟩
  have hcolon : address.text.contains ':' = false := by simpa using address.colon_notMem
  rw [hostIsPrivateOrLocal]
  simp only [Host.text, normalize_ipv4, (hnamed "localhost".toList 'l' (by decide) rfl).2,
    (hnamed ".localhost".toList 'l' (by decide) rfl).1,
    (hnamed ".local".toList 'l' (by decide) rfl).1,
    (hnamed ".internal".toList 'l' (by decide) rfl).1, (hnamed "::1".toList ':' (by decide) rfl).2,
    (hnamed "[::1]".toList ':' (by decide) rfl).2, hcolon, Bool.or_false, Bool.false_eq_true,
    if_false]
  split
  · next hzero =>
    rw [← ipv4IsPrivateOrLocal_text, beq_iff_eq.1 hzero]
    exact iff_of_true rfl (by decide)
  · exact ipv4IsPrivateOrLocal_text address

theorem normalize_ipv6 (address : Ipv6) :
    ((Host.ipv6 address).text.map Char.toLower).rdropWhile (· == '.') =
      (Host.ipv6 address).text := by
  refine normalize_eq (map_toLower_eq fun c hc => ?_) fun c hc => ?_
  · rw [Host.text, mem_append, mem_cons, mem_singleton] at hc
    rcases hc with (rfl | hc) | rfl
    · exact Or.inr (by decide)
    · rcases HostText.Ipv6.mem_serialize hc with rfl | hdigit | ⟨hlow, -⟩
      · exact Or.inl (by decide)
      · rw [Char.isDigit, Bool.and_eq_true, decide_eq_true_eq, decide_eq_true_eq] at hdigit
        have hle : c.toNat ≤ 57 := hdigit.2
        exact Or.inl (by omega)
      · have hle : 97 ≤ c.toNat := hlow
        exact Or.inr (by omega)
    · exact Or.inr (by decide)
  · rw [Host.text, List.getLast?_concat, Option.mem_some_iff] at hc
    rw [← hc]
    decide

/-- A host is found if one of the tests finds it. -/
theorem hostIsPrivateOrLocal_of_private {host : Host} (h : host.PrivateOrLocal) :
    hostIsPrivateOrLocal host.text = true := by
  cases host with
  | ipv4 address => exact (hostIsPrivateOrLocal_ipv4 address).2 h
  | ipv6 address =>
    have hguard := ipv6IsPrivateOrLocal_of_private h
    have hcolon : (Host.ipv6 address).text.contains ':' = true := by
      by_contra hnone
      have hserialize : address.serialize.contains ':' = false := by
        simp only [Host.text, contains_iff_mem, mem_append, mem_cons, not_or] at hnone
        simpa using hnone.1.2
      rw [ipv6IsPrivateOrLocal] at hguard
      simp only [stripBrackets_text, hserialize, Bool.not_false, if_true] at hguard
      cases hguard
    rw [hostIsPrivateOrLocal]
    simp only [normalize_ipv6, hcolon, hguard]
    split_ifs <;> rfl
  | domain named =>
    have hlower : named.name.map Char.toLower = named.name := by
      rw [map_congr_left named.lower, map_id']
    have htrimmed : ((Host.domain named).text.map Char.toLower).rdropWhile (· == '.') =
        named.trimmed := by
      rw [Host.text, hlower]
      rfl
    rw [hostIsPrivateOrLocal]
    simp only [htrimmed, endsWith, isSuffixOf_iff_suffix, Bool.or_eq_true, beq_iff_eq]
    rcases h with h | h | h | h
    · rw [if_pos (Or.inl h)]
    · rw [if_pos (Or.inr h)]
    · split
      · rfl
      · rw [if_pos (Or.inl h)]
    · split
      · rfl
      · rw [if_pos (Or.inr h)]

end Hosts

/-- **The guard**: no URL with a private or local host is safe, and over https one with any other
IPv4 address is. -/
theorem safe_url_guard (newURL : String → Option URL) (raw : String) :
    (∀ url, newURL raw = some url → url.host.PrivateOrLocal →
      isSafeHttpUrl newURL raw = false ∧ isSafeEndpointUrl newURL raw = false) ∧
    ∀ url address, newURL raw = some url → url.protocol = "https:" → url.host = .ipv4 address →
      ¬PrivateIpv4 address →
      isSafeHttpUrl newURL raw = true := by
  refine ⟨fun url hurl hprivate => ?_, fun url address hurl hprotocol hhost hpublic => ?_⟩
  · have hguard : hostIsPrivateOrLocal url.hostname = true :=
      hostIsPrivateOrLocal_of_private hprivate
    rw [isSafeHttpUrl, isSafeEndpointUrl, hurl]
    simp only [hguard, Bool.not_true, ite_self, and_self]
  · have hguard : hostIsPrivateOrLocal url.hostname = false := by
      rw [URL.hostname, hhost, Bool.eq_false_iff]
      exact fun h => hpublic ((hostIsPrivateOrLocal_ipv4 address).1 h)
    rw [isSafeHttpUrl, hurl]
    simp only [hguard, hprotocol, ne_eq, not_true_eq_false, if_false, Bool.not_false]

/-- The address of a metadata service, mapped. -/
def metadataUrl : URL := ⟨"https:", .ipv6 ⟨[0, 0, 0, 0, 0, 0xffff, 0xa9fe, 0xa9fe], rfl⟩⟩

def publicUrl : URL := ⟨"https:", .ipv4 ⟨8, 8, 8, 8⟩⟩

/-- A parser that knows two URLs. -/
def sampleParser (raw : String) : Option URL :=
  if raw = "https://[::ffff:169.254.169.254]/" then some metadataUrl
  else if raw = "https://8.8.8.8/" then some publicUrl
  else none

theorem safe_url_guard_sample :
    isSafeHttpUrl sampleParser "https://[::ffff:169.254.169.254]/" = false ∧
    isSafeHttpUrl sampleParser "https://8.8.8.8/" = true := by
  have hprivate : metadataUrl.host.PrivateOrLocal :=
    PrivateIpv6.mapped 0xa9fe 0xa9fe rfl (privateIpv4_iff.2 (by decide))
  have hpublic : ¬PrivateIpv4 ⟨8, 8, 8, 8⟩ := mt privateIpv4_iff.1 (by decide)
  exact ⟨((safe_url_guard sampleParser _).1 metadataUrl (if_pos rfl) hprivate).1,
    (safe_url_guard sampleParser _).2 publicUrl ⟨8, 8, 8, 8⟩ rfl rfl rfl hpublic⟩

end LoopOver.SafeUrl
