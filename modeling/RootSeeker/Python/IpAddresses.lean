import RootSeeker.Core.Loops
import RootSeeker.Python.JsonDecoder
import RootSeeker.Python.Words

/-!
# Textual IP addresses

`ipaddress.ip_address` reads one spelling of an IPv4 address, `inet_aton` many:
one to four parts, each of them decimal, octal or hexadecimal.  An IPv6 address
is eight groups, of which one run of zeros may be left out and the last two may be
written as an IPv4 address.
-/

namespace RootSeeker.Python

inductive IpAddress where
  | v4 (value : ℕ)
  | v6 (value : ℕ)
  deriving DecidableEq

/-! ## Reading an address -/

/-- A part of a dotted quad: at most three digits, without a leading zero. -/
def readOctet (part : PyStr) : Option ℕ :=
  if part ≠ [] ∧ part.all isDigit ∧ part.length ≤ 3 ∧
      (part = py "0" ∨ part.head? ≠ some (CodePoint.ofChar '0')) ∧
      Url.readDecimal part ≤ 255 then
    some (Url.readDecimal part)
  else none

/-- The number with these digits in base `base`. -/
def ofDigits (base : ℕ) (values : List ℕ) : ℕ :=
  values.foldl (fun number value => number * base + value) 0

/-- `IPv4Address(text)`. -/
def parseIPv4 (text : PyStr) : Option ℕ :=
  match (text.splitOn dotChar).mapM readOctet with
  | some values => if values.length = 4 then some (ofDigits 256 values) else none
  | none => none

/-- What stands between two colons. -/
inductive AddressGroup where
  | empty
  | hextet (value : ℕ)
  | malformed
  deriving DecidableEq

def readGroup (text : PyStr) : AddressGroup :=
  if text = [] then .empty
  else if text.length ≤ 4 then (hexNumber text).elim .malformed .hextet
  else .malformed

/-- The groups between the colons, where an IPv4 address at the end stands for two. -/
def readGroups (parts : List PyStr) : Option (List AddressGroup) :=
  if parts.length < 3 then none
  else
    let last := parts.getLastD []
    if dotChar ∈ last then
      (parseIPv4 last).map fun value =>
        parts.dropLast.map readGroup ++
          [.hextet (value / 65536), .hextet (value % 65536)]
    else some (parts.map readGroup)

/-- `_parse_hextet`, which refuses an empty text. -/
def AddressGroup.value : AddressGroup → Option ℕ
  | .hextet value => some value
  | _ => none

/-- The groups before the run of zeros; an empty one may only stand right before it. -/
def groupsBefore (skip : ℕ) (groups : List AddressGroup) : Option (List AddressGroup) :=
  if groups.head? = some .empty then (if skip = 1 then some [] else none)
  else some (groups.take skip)

def groupsAfter (skip : ℕ) (groups : List AddressGroup) : Option (List AddressGroup) :=
  if groups.getLast? = some .empty then
    (if skip + 2 = groups.length then some [] else none)
  else some (groups.drop (skip + 1))

/-- `_ip_int_from_string` from the groups on: the empty group that is not at an end
stands for the run of zeros. -/
def valueOfGroups (groups : List AddressGroup) : Option ℕ :=
  let inner := groups.tail.dropLast
  if 9 < groups.length then none
  else if inner.count .empty = 0 then
    if groups.length = 8 then (groups.mapM AddressGroup.value).map (ofDigits 65536) else none
  else if inner.count .empty = 1 then
    let skip := inner.idxOf .empty + 1
    match groupsBefore skip groups, groupsAfter skip groups with
    | some before, some after =>
      if before.length + after.length < 8 then
        match before.mapM AddressGroup.value, after.mapM AddressGroup.value with
        | some high, some low =>
          some (ofDigits 65536
            (high ++ List.replicate (8 - (before.length + after.length)) 0 ++ low))
        | _, _ => none
      else none
    | _, _ => none
  else none

def percentSign : CodePoint := CodePoint.ofChar '%'

/-- The address before a zone; the zone is not empty and has no second percent sign. -/
def splitScope (text : PyStr) : Option PyStr :=
  if percentSign ∈ text then
    let zone := (cutAt percentSign text).2
    if zone = [] ∨ percentSign ∈ zone then none else some (cutAt percentSign text).1
  else some text

/-- `IPv6Address(text)`. -/
def parseIPv6 (text : PyStr) : Option ℕ :=
  if slashChar ∈ text then none
  else
    (splitScope text).bind fun address =>
      (readGroups (address.splitOn colonChar)).bind valueOfGroups

/-- `ip_address(text)`; nothing for a `ValueError`. -/
def ipAddress (text : PyStr) : Option IpAddress :=
  ((parseIPv4 text).map .v4).or ((parseIPv6 text).map .v6)

/-! ## What an address is -/

/-- Both addresses are in one network of the given number of host bits. -/
def inNetwork (network hostBits address : ℕ) : Bool :=
  address / 2 ^ hostBits = network / 2 ^ hostBits

def privateIPv4 : List (List ℕ × ℕ) :=
  [([0, 0, 0, 0], 24), ([10, 0, 0, 0], 24), ([127, 0, 0, 0], 24), ([169, 254, 0, 0], 16),
    ([172, 16, 0, 0], 20), ([192, 0, 0, 0], 8), ([192, 0, 0, 170], 1), ([192, 0, 2, 0], 8),
    ([192, 168, 0, 0], 16), ([198, 18, 0, 0], 17), ([198, 51, 100, 0], 8),
    ([203, 0, 113, 0], 8), ([240, 0, 0, 0], 28), ([255, 255, 255, 255], 0)]

def publicIPv4 : List (List ℕ × ℕ) :=
  [([192, 0, 0, 9], 0), ([192, 0, 0, 10], 0)]

def privateIPv6 : List (List ℕ × ℕ) :=
  [([0, 0, 0, 0, 0, 0, 0, 1], 0), ([0, 0, 0, 0, 0, 0, 0, 0], 0),
    ([0, 0, 0, 0, 0, 0xFFFF, 0, 0], 32), ([0x64, 0xFF9B, 1, 0, 0, 0, 0, 0], 80),
    ([0x100, 0, 0, 0, 0, 0, 0, 0], 64), ([0x2001, 0, 0, 0, 0, 0, 0, 0], 105),
    ([0x2001, 0xDB8, 0, 0, 0, 0, 0, 0], 96), ([0x2002, 0, 0, 0, 0, 0, 0, 0], 112),
    ([0xFC00, 0, 0, 0, 0, 0, 0, 0], 121), ([0xFE80, 0, 0, 0, 0, 0, 0, 0], 118)]

def publicIPv6 : List (List ℕ × ℕ) :=
  [([0x2001, 1, 0, 0, 0, 0, 0, 1], 0), ([0x2001, 1, 0, 0, 0, 0, 0, 2], 0),
    ([0x2001, 3, 0, 0, 0, 0, 0, 0], 96), ([0x2001, 4, 0x112, 0, 0, 0, 0, 0], 80),
    ([0x2001, 0x20, 0, 0, 0, 0, 0, 0], 100), ([0x2001, 0x30, 0, 0, 0, 0, 0, 0], 100)]

def isPrivateIPv4 (value : ℕ) : Bool :=
  (privateIPv4.any fun net => inNetwork (ofDigits 256 net.1) net.2 value) &&
    !publicIPv4.any fun net => inNetwork (ofDigits 256 net.1) net.2 value

/-- `ip.is_private`; an IPv6 address that stands for an IPv4 one is what that is. -/
def IpAddress.isPrivate : IpAddress → Bool
  | .v4 value => isPrivateIPv4 value
  | .v6 value =>
    if value / 2 ^ 32 = 0xFFFF then isPrivateIPv4 (value % 2 ^ 32)
    else
      (privateIPv6.any fun net => inNetwork (ofDigits 65536 net.1) net.2 value) &&
        !publicIPv6.any fun net => inNetwork (ofDigits 65536 net.1) net.2 value

def IpAddress.isLoopback : IpAddress → Bool
  | .v4 value => inNetwork (ofDigits 256 [127, 0, 0, 0]) 24 value
  | .v6 value => value = 1

def IpAddress.isLinkLocal : IpAddress → Bool
  | .v4 value => inNetwork (ofDigits 256 [169, 254, 0, 0]) 16 value
  | .v6 value => inNetwork (ofDigits 65536 [0xFE80, 0, 0, 0, 0, 0, 0, 0]) 118 value

/-! ## What the resolver reads -/

/-- A number as in C: hexadecimal after `0x`, octal after `0`, else decimal. -/
def readNumberC : PyStr → Option ℕ
  | [] => none
  | c :: rest =>
    if c = CodePoint.ofChar '0' then
      if rest.head? = some (CodePoint.ofChar 'x') ∨ rest.head? = some (CodePoint.ofChar 'X') then
        if rest.tail = [] then none else hexNumber rest.tail
      else if rest.all fun d => isDigit d && d.val < 0x38 then
        some (ofDigits 8 (rest.map fun d => d.val - 0x30))
      else none
    else if (c :: rest).all isDigit then some (Url.readDecimal (c :: rest))
    else none

/-- `inet_aton`: the last part fills the bytes that are left. -/
def inetAton (text : PyStr) : Option ℕ :=
  match (text.splitOn dotChar).mapM readNumberC with
  | some values =>
    let room := 256 ^ (5 - values.length)
    if values.length ≤ 4 ∧ (∀ value ∈ values.dropLast, value ≤ 255) ∧
        values.getLastD 0 < room then
      some (ofDigits 256 values.dropLast * room + values.getLastD 0)
    else none
  | none => none

/-- An IPv4 address that may end with a dot, as host names may. -/
def resolveIPv4 (host : PyStr) : Option ℕ :=
  (inetAton host).or
    (if host.getLast? = some dotChar then inetAton host.dropLast else none)

/-- The text of a group. -/
structure SpellsHextet (text : PyStr) (value : ℕ) : Prop where
  ne_nil : text ≠ []
  length_le : text.length ≤ 4
  value_eq : hexNumber text = some value

/-- Texts of groups, of which the last may be a dotted quad. -/
inductive SpellsGroups : List PyStr → List ℕ → Prop
  | hextets {texts : List PyStr} {values : List ℕ}
      (htexts : List.Forall₂ SpellsHextet texts values) : SpellsGroups texts values
  | quad {texts : List PyStr} {values : List ℕ} {last : PyStr} {value : ℕ}
      (htexts : List.Forall₂ SpellsHextet texts values) (hlast : parseIPv4 last = some value) :
      SpellsGroups (texts ++ [last]) (values ++ [value / 65536, value % 65536])

/-- The textual forms of an IPv6 address. -/
inductive SpellsIPv6 : PyStr → ℕ → Prop
  | full {texts : List PyStr} {values : List ℕ} (htexts : SpellsGroups texts values)
      (hlength : values.length = 8) :
      SpellsIPv6 (join [colonChar] texts) (ofDigits 65536 values)
  | compressed {left right : List PyStr} {high low : List ℕ}
      (hleft : List.Forall₂ SpellsHextet left high) (hright : SpellsGroups right low)
      (hlength : high.length + low.length < 8) :
      SpellsIPv6 (join [colonChar] left ++ colonChar :: colonChar :: join [colonChar] right)
        (ofDigits 65536 (high ++ List.replicate (8 - (high.length + low.length)) 0 ++ low))

/-- The resolver reads the host as this address without looking up a name. -/
inductive Spells : PyStr → IpAddress → Prop
  | v4 {host : PyStr} {value : ℕ} (hhost : resolveIPv4 host = some value) :
      Spells host (.v4 value)
  | v6 {host : PyStr} {value : ℕ} (hhost : SpellsIPv6 host value) : Spells host (.v6 value)
  | zoned {text zone : PyStr} {value : ℕ} (htext : SpellsIPv6 text value) (hne : zone ≠ [])
      (hpercent : percentSign ∉ zone) (hslash : slashChar ∉ zone) :
      Spells (text ++ percentSign :: zone) (.v6 value)

example : ipAddress (py "::ffff:127.0.0.1") = some (.v6 0xFFFF7F000001) := by decide +kernel
example : resolveIPv4 (py "0x7f.1") = some 0x7F000001 := by decide +kernel

/-! ## Both read a dotted quad alike -/

theorem readNumberC_of_readOctet {part : PyStr} {value : ℕ}
    (hoctet : readOctet part = some value) : readNumberC part = some value ∧ value ≤ 255 := by
  unfold readOctet at hoctet
  split at hoctet
  · rename_i hpart
    obtain ⟨hne, hdigits, _, hlead, hle⟩ := hpart
    obtain rfl := Option.some.inj hoctet
    refine ⟨?_, hle⟩
    rcases hlead with rfl | hlead
    · rfl
    · cases part with
      | nil => exact absurd rfl hne
      | cons c rest =>
        have hc : c ≠ CodePoint.ofChar '0' := fun heq => hlead (heq ▸ rfl)
        rw [readNumberC, if_neg hc, if_pos hdigits]
  · exact absurd hoctet (by simp)

theorem parseIPv4_eq_some_iff {text : PyStr} {value : ℕ} :
    parseIPv4 text = some value ↔
      ∃ values, List.Forall₂ (fun part value => readOctet part = some value)
        (text.splitOn dotChar) values ∧ values.length = 4 ∧ ofDigits 256 values = value := by
  unfold parseIPv4
  simp only [← Loops.mapM_eq_some_iff]
  cases (text.splitOn dotChar).mapM readOctet with
  | none => simp
  | some values =>
    simp only [Option.some.injEq, exists_eq_left']
    split
    · rename_i hlength
      simp [hlength]
    · rename_i hlength
      simp [hlength]

/-- A dotted quad is read alike by both. -/
theorem inetAton_of_parseIPv4 {text : PyStr} {value : ℕ}
    (hparse : parseIPv4 text = some value) : inetAton text = some value := by
  obtain ⟨values, hvalues, hlength, rfl⟩ := parseIPv4_eq_some_iff.mp hparse
  have hnumbers : (text.splitOn dotChar).mapM readNumberC = some values :=
    Loops.mapM_eq_some_iff.mpr
      (hvalues.imp fun _ _ hoctet => (readNumberC_of_readOctet hoctet).1)
  have hsmall : ∀ value ∈ values, value ≤ 255 := by
    intro value hvalue
    obtain ⟨part, _, hoctet⟩ := Loops.exists_item_of_mem hvalues hvalue
    exact (readNumberC_of_readOctet hoctet).2
  obtain ⟨a, b, c, d, rfl⟩ := List.length_eq_four.mp hlength
  simp only [List.forall_mem_cons] at hsmall
  unfold inetAton
  rw [hnumbers]
  simp [ofDigits, hsmall.1, hsmall.2.1, hsmall.2.2.1, Nat.lt_succ_of_le hsmall.2.2.2.1]

/-! ## The characters of an address -/

/-- A digit of base sixteen. -/
def IsHexDigit (c : CodePoint) : Prop :=
  ∃ value, hexDigitValue c = some value

theorem isHexDigit_of_hexNumber {digits : PyStr} {value : ℕ}
    (hnumber : hexNumber digits = some value) : ∀ c ∈ digits, IsHexDigit c := by
  have hall : ∀ start, digits.foldlM
      (fun value c => (hexDigitValue c).map (value * 16 + ·)) start = some value →
        ∀ c ∈ digits, IsHexDigit c := by
    clear hnumber
    induction digits with
    | nil => exact fun _ _ c hc => absurd hc List.not_mem_nil
    | cons d digits ih =>
      intro start hfold
      rw [List.foldlM_cons] at hfold
      obtain ⟨next, hnext, hrest⟩ := Option.bind_eq_some_iff.mp hfold
      obtain ⟨digit, hdigit, _⟩ := Option.map_eq_some_iff.mp hnext
      exact List.forall_mem_cons.mpr ⟨⟨digit, hdigit⟩, ih next hrest⟩
  exact hall 0 hnumber

theorem ne_of_isHexDigit {c d : CodePoint} (hc : IsHexDigit c) (hd : hexDigitValue d = none) :
    c ≠ d := by
  rintro rfl
  obtain ⟨value, hvalue⟩ := hc
  rw [hd] at hvalue
  exact absurd hvalue (by simp)

theorem isHexDigit_of_isDigit {c : CodePoint} (hc : isDigit c = true) : IsHexDigit c :=
  ⟨c.val - 0x30, by rw [hexDigitValue, if_pos hc]⟩

theorem isDigit_of_readOctet {part : PyStr} {value : ℕ}
    (hoctet : readOctet part = some value) : ∀ c ∈ part, isDigit c = true := by
  unfold readOctet at hoctet
  split at hoctet
  · rename_i hpart
    exact List.all_eq_true.mp hpart.2.1
  · exact absurd hoctet (by simp)

theorem mem_of_splitOn {separator c : CodePoint} {text : PyStr} (hc : c ∈ text) :
    c = separator ∨ ∃ part ∈ text.splitOn separator, c ∈ part := by
  have hjoin : [separator].intercalate (text.splitOn separator) = text :=
    List.intercalate_splitOn separator
  rw [← hjoin] at hc
  rcases mem_of_mem_join hc with hseparator | hpart
  · exact .inl (List.mem_singleton.mp hseparator)
  · exact .inr hpart

theorem char_of_parseIPv4 {text : PyStr} {value : ℕ} (hparse : parseIPv4 text = some value) :
    ∀ c ∈ text, c = dotChar ∨ IsHexDigit c := by
  obtain ⟨values, hvalues, _, _⟩ := parseIPv4_eq_some_iff.mp hparse
  intro c hc
  refine (mem_of_splitOn hc).imp_right ?_
  rintro ⟨part, hpart, hmem⟩
  obtain ⟨octet, _, hoctet⟩ := Loops.exists_item_of_mem hvalues.flip hpart
  exact isHexDigit_of_isDigit (isDigit_of_readOctet hoctet c hmem)

/-- A dotted quad has a dot. -/
theorem dot_mem_of_parseIPv4 {text : PyStr} {value : ℕ}
    (hparse : parseIPv4 text = some value) : dotChar ∈ text := by
  obtain ⟨values, hvalues, hlength, _⟩ := parseIPv4_eq_some_iff.mp hparse
  by_contra hdot
  rw [List.splitOn_eq_singleton hdot] at hvalues
  have hone := hvalues.length_eq
  rw [hlength] at hone
  exact absurd hone (by simp)

theorem SpellsHextet.char {text : PyStr} {value : ℕ} (htext : SpellsHextet text value) :
    ∀ c ∈ text, IsHexDigit c :=
  isHexDigit_of_hexNumber htext.value_eq

/-- The text of a group, or a dotted quad at the end. -/
theorem SpellsGroups.char {texts : List PyStr} {values : List ℕ}
    (htexts : SpellsGroups texts values) :
    ∀ text ∈ texts, ∀ c ∈ text, c = dotChar ∨ IsHexDigit c := by
  have hall : ∀ {texts : List PyStr} {values : List ℕ},
      List.Forall₂ SpellsHextet texts values →
        ∀ text ∈ texts, ∀ c ∈ text, c = dotChar ∨ IsHexDigit c := by
    intro texts values htexts text htext c hc
    obtain ⟨value, _, hhextet⟩ := Loops.exists_item_of_mem htexts.flip htext
    exact .inr (hhextet.char c hc)
  cases htexts with
  | hextets htexts => exact hall htexts
  | quad htexts hlast =>
    intro text htext
    rcases List.mem_append.mp htext with hfront | hquad
    · exact hall htexts text hfront
    · rw [List.mem_singleton.mp hquad]
      exact char_of_parseIPv4 hlast

/-! ## Every form of an IPv6 address is read -/

theorem readGroup_of_hextet {text : PyStr} {value : ℕ} (htext : SpellsHextet text value) :
    readGroup text = .hextet value := by
  rw [readGroup, if_neg htext.ne_nil, if_pos htext.length_le, htext.value_eq]
  rfl

theorem map_readGroup {texts : List PyStr} {values : List ℕ}
    (htexts : List.Forall₂ SpellsHextet texts values) :
    texts.map readGroup = values.map .hextet := by
  induction htexts with
  | nil => rfl
  | cons hfirst _ ih => rw [List.map_cons, List.map_cons, readGroup_of_hextet hfirst, ih]

/-- The groups of a text that ends with groups. -/
theorem readGroups_append (before : List PyStr) {texts : List PyStr} {values : List ℕ}
    (htexts : SpellsGroups texts values) (hne : texts ≠ []) (hlength : 3 ≤ (before ++ texts).length) :
    readGroups (before ++ texts) = some (before.map readGroup ++ values.map .hextet) := by
  rw [readGroups, if_neg (not_lt.mpr hlength)]
  cases htexts with
  | hextets htexts =>
    obtain ⟨front, last, rfl⟩ := (List.eq_nil_or_concat texts).resolve_left hne
    have hdot : dotChar ∉ (before ++ front.concat last).getLastD [] := by
      rw [List.concat_eq_append, ← List.append_assoc, List.getLastD_concat]
      intro hmem
      obtain ⟨value, _, hhextet⟩ := Loops.exists_item_of_mem htexts.flip
        (by simp : last ∈ front.concat last)
      exact ne_of_isHexDigit (hhextet.char _ hmem) (by decide) rfl
    rw [if_neg hdot, List.map_append, map_readGroup htexts]
  | @quad front values last value htexts hlast =>
    have hdot : dotChar ∈ (before ++ (front ++ [last])).getLastD [] := by
      rw [← List.append_assoc, List.getLastD_concat]
      exact dot_mem_of_parseIPv4 hlast
    rw [if_pos hdot, ← List.append_assoc, List.getLastD_concat, hlast, List.dropLast_concat,
      Option.map_some, List.map_append, map_readGroup htexts]
    simp

theorem mapM_value (values : List ℕ) :
    (values.map AddressGroup.hextet).mapM AddressGroup.value = some values := by
  rw [Loops.mapM_eq_some_iff, List.forall₂_map_left_iff]
  exact List.forall₂_same.mpr fun _ _ => rfl

theorem empty_not_mem (values : List ℕ) : AddressGroup.empty ∉ values.map AddressGroup.hextet := by
  simp

theorem valueOfGroups_full {values : List ℕ} (hlength : values.length = 8) :
    valueOfGroups (values.map .hextet) = some (ofDigits 65536 values) := by
  have hnone : ((values.map AddressGroup.hextet).tail.dropLast).count .empty = 0 := by
    rw [List.count_eq_zero]
    exact fun hmem => empty_not_mem values (List.mem_of_mem_tail (List.mem_of_mem_dropLast hmem))
  rw [valueOfGroups]
  simp only [hnone, List.length_map, hlength, if_true, mapM_value, Option.map_some]
  rfl

/-- The groups on one side of the run of zeros, where an end is left empty. -/
def edgeGroups (values : List ℕ) : List AddressGroup :=
  if values = [] then [.empty] else values.map .hextet

theorem groupsBefore_edgeGroups (high : List ℕ) (rest : List AddressGroup) :
    groupsBefore (edgeGroups high).length (edgeGroups high ++ rest) = some (high.map .hextet) := by
  cases high with
  | nil => rfl
  | cons value high =>
    rw [groupsBefore, if_neg (by simp [edgeGroups]), List.take_left]
    rfl

theorem groupsAfter_edgeGroups (front : List AddressGroup) (low : List ℕ) :
    groupsAfter front.length (front ++ AddressGroup.empty :: edgeGroups low) =
      some (low.map .hextet) := by
  rcases List.eq_nil_or_concat low with rfl | ⟨low, last, rfl⟩
  · rw [groupsAfter, if_pos (by simp [edgeGroups]), if_pos (by simp [edgeGroups])]
    rfl
  · have hne : low.concat last ≠ [] := by simp
    have hlast : (front ++ AddressGroup.empty :: (low.concat last).map .hextet).getLast? =
        some (.hextet last) := by
      rw [List.concat_eq_append, List.map_append, ← List.cons_append, ← List.append_assoc]
      exact List.getLast?_concat
    rw [groupsAfter, edgeGroups, if_neg hne, hlast, if_neg (by simp)]
    simp

theorem valueOfGroups_compressed {high low : List ℕ} (hlength : high.length + low.length < 8) :
    valueOfGroups (edgeGroups high ++ AddressGroup.empty :: edgeGroups low) =
      some (ofDigits 65536
        (high ++ List.replicate (8 - (high.length + low.length)) 0 ++ low)) := by
  have hedge : ∀ values,
      edgeGroups values ≠ [] ∧ (edgeGroups values).length ≤ max 1 values.length := by
    intro values
    unfold edgeGroups
    split
    · simp
    · rename_i hne
      simpa using hne
  have hhead : AddressGroup.empty ∉ (edgeGroups high).tail := by
    cases high with
    | nil => simp [edgeGroups]
    | cons value high => simp [edgeGroups]
  have hlast : AddressGroup.empty ∉ (edgeGroups low).dropLast := by
    unfold edgeGroups
    split
    · simp
    · exact fun hmem => empty_not_mem low (List.mem_of_mem_dropLast hmem)
  have hinner : (edgeGroups high ++ AddressGroup.empty :: edgeGroups low).tail.dropLast =
      (edgeGroups high).tail ++ AddressGroup.empty :: (edgeGroups low).dropLast := by
    rw [List.tail_append_of_ne_nil (hedge high).1,
      List.dropLast_append_of_ne_nil (List.cons_ne_nil _ _),
      List.dropLast_cons_of_ne_nil (hedge low).1]
  have hcount : (edgeGroups high ++ AddressGroup.empty :: edgeGroups low).tail.dropLast.count
      .empty = 1 := by
    rw [hinner, List.count_append, List.count_eq_zero.mpr hhead, List.count_cons_self,
      List.count_eq_zero.mpr hlast]
  have hskip : (edgeGroups high ++ AddressGroup.empty :: edgeGroups low).tail.dropLast.idxOf
      .empty + 1 = (edgeGroups high).length := by
    rw [hinner, List.idxOf_append_of_notMem hhead, List.idxOf_cons_self, List.length_tail,
      Nat.add_zero]
    exact Nat.sub_add_cancel (List.length_pos_iff.mpr (hedge high).1)
  have hshort : ¬9 < (edgeGroups high ++ AddressGroup.empty :: edgeGroups low).length := by
    have hhigh := (hedge high).2
    have hlow := (hedge low).2
    simp only [List.length_append, List.length_cons]
    omega
  rw [valueOfGroups]
  simp only [hshort, hcount, hskip, groupsBefore_edgeGroups, groupsAfter_edgeGroups, if_false,
    if_true, one_ne_zero, List.length_map, hlength, mapM_value]

/-- The texts on one side of the run of zeros, where an end is left empty. -/
def edgeTexts (texts : List PyStr) : List PyStr :=
  if texts = [] then [[]] else texts

theorem join_edgeTexts (separator : PyStr) (texts : List PyStr) :
    join separator (edgeTexts texts) = join separator texts := by
  unfold edgeTexts
  split
  · rename_i hempty
    rw [hempty]
    rfl
  · rfl

theorem edgeTexts_ne_nil (texts : List PyStr) : edgeTexts texts ≠ [] := by
  unfold edgeTexts
  split
  · simp
  · assumption

/-- Two colons have an empty text between them. -/
theorem join_compressed (left right : List PyStr) :
    join [colonChar] left ++ colonChar :: colonChar :: join [colonChar] right =
      join [colonChar] (edgeTexts left ++ [] :: edgeTexts right) := by
  obtain ⟨first, front, hleft⟩ := List.exists_cons_of_ne_nil (edgeTexts_ne_nil left)
  obtain ⟨second, back, hright⟩ := List.exists_cons_of_ne_nil (edgeTexts_ne_nil right)
  rw [← join_edgeTexts _ left, ← join_edgeTexts _ right, hleft, hright, List.cons_append]
  simp only [join, Framing.intercalate_cons, List.flatMap_append, List.flatMap_cons]
  simp

theorem map_readGroup_edgeTexts {texts : List PyStr} {values : List ℕ}
    (htexts : List.Forall₂ SpellsHextet texts values) :
    (edgeTexts texts).map readGroup = edgeGroups values := by
  cases htexts with
  | nil => rfl
  | cons hfirst hrest =>
    rw [edgeTexts, if_neg (List.cons_ne_nil _ _), edgeGroups, if_neg (List.cons_ne_nil _ _)]
    exact map_readGroup (List.Forall₂.cons hfirst hrest)

theorem SpellsGroups.eq_nil_iff {texts : List PyStr} {values : List ℕ}
    (htexts : SpellsGroups texts values) : texts = [] ↔ values = [] := by
  cases htexts with
  | hextets htexts => cases htexts <;> simp
  | quad _ _ => simp

/-- The groups of a text with two colons. -/
theorem readGroups_compressed {left right : List PyStr} {high low : List ℕ}
    (hleft : List.Forall₂ SpellsHextet left high) (hright : SpellsGroups right low) :
    readGroups (edgeTexts left ++ [] :: edgeTexts right) =
      some (edgeGroups high ++ AddressGroup.empty :: edgeGroups low) := by
  have hlength : ∀ texts : List PyStr, 1 ≤ (edgeTexts texts).length :=
    fun texts => List.length_pos_iff.mpr (edgeTexts_ne_nil texts)
  by_cases hempty : right = []
  · have hlow := hright.eq_nil_iff.mp hempty
    subst hempty hlow
    have hthree : ¬(edgeTexts left ++ [] :: edgeTexts []).length < 3 := by
      have hone := hlength left
      simp only [List.length_append, List.length_cons, edgeTexts, if_true, List.length_nil]
      simp only [edgeTexts] at hone
      omega
    have hdot : dotChar ∉ (edgeTexts left ++ [] :: edgeTexts []).getLastD [] := by
      rw [show edgeTexts left ++ [] :: edgeTexts [] = edgeTexts left ++ [[]] ++ [[]] by
        simp [edgeTexts], List.getLastD_concat]
      exact List.not_mem_nil
    rw [readGroups, if_neg hthree, if_neg hdot, List.map_append, List.map_cons,
      map_readGroup_edgeTexts hleft]
    rfl
  · have hlow : low ≠ [] := fun hnil => hempty (hright.eq_nil_iff.mpr hnil)
    have hright' : edgeTexts right = right := if_neg hempty
    have hthree : 3 ≤ ((edgeTexts left ++ [[]]) ++ right).length := by
      have hone := hlength left
      have htwo : 1 ≤ right.length := List.length_pos_iff.mpr hempty
      simp only [List.length_append, List.length_singleton]
      omega
    have hread := readGroups_append (edgeTexts left ++ [[]]) hright hempty hthree
    rw [List.append_assoc, List.singleton_append] at hread
    rw [hright', hread, List.map_append, map_readGroup_edgeTexts hleft, edgeGroups, edgeGroups,
      if_neg hlow]
    simp [readGroup]

theorem colon_not_mem_of_char {text : PyStr}
    (htext : ∀ c ∈ text, c = dotChar ∨ IsHexDigit c) : colonChar ∉ text := by
  intro hmem
  rcases htext colonChar hmem with hdot | hhex
  · exact absurd hdot (by decide)
  · exact ne_of_isHexDigit hhex (by decide) rfl

theorem char_of_hextets {texts : List PyStr} {values : List ℕ}
    (htexts : List.Forall₂ SpellsHextet texts values) :
    ∀ text ∈ texts, ∀ c ∈ text, c = dotChar ∨ IsHexDigit c :=
  (SpellsGroups.hextets htexts).char

namespace SpellsIPv6

variable {text : PyStr} {value : ℕ}

/-- The groups of every form have the value of the address. -/
theorem groups (htext : SpellsIPv6 text value) :
    (readGroups (text.splitOn colonChar)).bind valueOfGroups = some value := by
  cases htext with
  | @full texts values htexts hlength =>
    have hne : texts ≠ [] := by
      rw [ne_eq, htexts.eq_nil_iff]
      rintro rfl
      exact absurd hlength (by simp)
    have hsplit : (join [colonChar] texts).splitOn colonChar = texts :=
      (Framing.splitOn_intercalate_iff colonChar texts).mpr
        ⟨hne, fun piece hpiece => colon_not_mem_of_char (htexts.char piece hpiece)⟩
    have hthree : 3 ≤ ([] ++ texts).length := by
      rw [List.nil_append]
      cases htexts with
      | hextets htexts =>
        have hsame := htexts.length_eq
        omega
      | quad htexts _ =>
        have hsame := htexts.length_eq
        simp only [List.length_append, List.length_cons, List.length_nil] at hlength ⊢
        omega
    have hread := readGroups_append [] htexts hne hthree
    rw [hsplit, show readGroups texts = _ from hread, Option.bind_some]
    exact valueOfGroups_full hlength
  | @compressed left right high low hleft hright hlength =>
    have hcolon : ∀ texts : List PyStr, (∀ piece ∈ texts, colonChar ∉ piece) →
        ∀ piece ∈ edgeTexts texts, colonChar ∉ piece := by
      intro texts htexts piece hpiece
      unfold edgeTexts at hpiece
      split at hpiece
      · rw [List.mem_singleton.mp hpiece]
        exact List.not_mem_nil
      · exact htexts piece hpiece
    have hsplit : (join [colonChar] (edgeTexts left ++ [] :: edgeTexts right)).splitOn
        colonChar = edgeTexts left ++ [] :: edgeTexts right := by
      refine (Framing.splitOn_intercalate_iff colonChar _).mpr ⟨by simp, ?_⟩
      intro piece hpiece
      rcases List.mem_append.mp hpiece with hfront | hback
      · exact hcolon left (fun piece hpiece =>
          colon_not_mem_of_char (char_of_hextets hleft piece hpiece)) piece hfront
      · rcases List.mem_cons.mp hback with rfl | hback
        · exact List.not_mem_nil
        · exact hcolon right (fun piece hpiece =>
            colon_not_mem_of_char (hright.char piece hpiece)) piece hback
    rw [join_compressed, hsplit, readGroups_compressed hleft hright, Option.bind_some]
    exact valueOfGroups_compressed hlength

theorem char (htext : SpellsIPv6 text value) :
    ∀ c ∈ text, c = colonChar ∨ c = dotChar ∨ IsHexDigit c := by
  have hjoin : ∀ texts : List PyStr,
      (∀ piece ∈ texts, ∀ c ∈ piece, c = dotChar ∨ IsHexDigit c) →
        ∀ c ∈ join [colonChar] texts, c = colonChar ∨ c = dotChar ∨ IsHexDigit c := by
    intro texts htexts c hc
    rcases mem_of_mem_join hc with hcolon | ⟨piece, hpiece, hmem⟩
    · exact .inl (List.mem_singleton.mp hcolon)
    · exact .inr (htexts piece hpiece c hmem)
  cases htext with
  | full htexts _ => exact hjoin _ htexts.char
  | compressed hleft hright _ =>
    intro c hc
    simp only [List.mem_append, List.mem_cons] at hc
    rcases hc with hmem | hmem | hmem | hmem
    · exact hjoin _ (char_of_hextets hleft) c hmem
    · exact .inl hmem
    · exact .inl hmem
    · exact hjoin _ hright.char c hmem

theorem not_mem (htext : SpellsIPv6 text value) {d : CodePoint} (hcolon : d ≠ colonChar)
    (hdot : d ≠ dotChar) (hhex : hexDigitValue d = none) : d ∉ text := by
  intro hmem
  rcases htext.char d hmem with heq | heq | hdigit
  · exact hcolon heq
  · exact hdot heq
  · exact ne_of_isHexDigit hdigit hhex rfl

theorem colon_mem (htext : SpellsIPv6 text value) : colonChar ∈ text := by
  by_contra hcolon
  have hgroups := htext.groups
  rw [List.splitOn_eq_singleton hcolon] at hgroups
  exact absurd hgroups (by simp [readGroups])

theorem parseIPv6 (htext : SpellsIPv6 text value) : Python.parseIPv6 text = some value := by
  rw [Python.parseIPv6, if_neg (htext.not_mem (by decide) (by decide) (by decide)), splitScope,
    if_neg (htext.not_mem (by decide) (by decide) (by decide)), Option.bind_some]
  exact htext.groups

/-- An address with a zone is read as well. -/
theorem parseIPv6_zoned (htext : SpellsIPv6 text value) {zone : PyStr} (hne : zone ≠ [])
    (hpercent : percentSign ∉ zone) (hslash : slashChar ∉ zone) :
    Python.parseIPv6 (text ++ percentSign :: zone) = some value := by
  have hcut : cutAt percentSign (text ++ percentSign :: zone) = (text, zone) :=
    cutAt_append (htext.not_mem (by decide) (by decide) (by decide)) zone
  have hnoSlash : slashChar ∉ text ++ percentSign :: zone := by
    rw [List.mem_append, List.mem_cons]
    rintro (hmem | hmem | hmem)
    · exact htext.not_mem (by decide) (by decide) (by decide) hmem
    · exact absurd hmem (by decide)
    · exact hslash hmem
  have hscope : splitScope (text ++ percentSign :: zone) = some text := by
    rw [splitScope, if_pos (by simp), hcut]
    simp [hne, hpercent]
  rw [Python.parseIPv6, if_neg hnoSlash, hscope, Option.bind_some]
  exact htext.groups

end SpellsIPv6

/-- No IPv4 address is in a text with a colon. -/
theorem parseIPv4_eq_none {text : PyStr} (hcolon : colonChar ∈ text) : parseIPv4 text = none := by
  cases hparse : parseIPv4 text with
  | none => rfl
  | some value => exact absurd hcolon (colon_not_mem_of_char (char_of_parseIPv4 hparse))

/-- Every form of an IPv6 address is read as that address. -/
theorem ipAddress_of_spells_v6 {host : PyStr} {value : ℕ} (hhost : Spells host (.v6 value)) :
    ipAddress host = some (.v6 value) := by
  cases hhost with
  | v6 htext =>
    rw [ipAddress, parseIPv4_eq_none htext.colon_mem, htext.parseIPv6]
    rfl
  | zoned htext hne hpercent hslash =>
    rw [ipAddress, parseIPv4_eq_none (List.mem_append_left _ htext.colon_mem),
      htext.parseIPv6_zoned hne hpercent hslash]
    rfl

theorem resolveIPv4_of_spells {host : PyStr} {value : ℕ} (hhost : Spells host (.v4 value)) :
    resolveIPv4 host = some value := by
  cases hhost with
  | v4 hresolve => exact hresolve

theorem colon_not_mem_of_readNumberC {part : PyStr} {value : ℕ}
    (hpart : readNumberC part = some value) : colonChar ∉ part := by
  intro hmem
  have hdigits : ∀ {digits : PyStr}, (∀ c ∈ digits, IsHexDigit c) → colonChar ∉ digits :=
    fun hhex hcolon => ne_of_isHexDigit (hhex _ hcolon) (by decide) rfl
  cases part with
  | nil => exact absurd hmem List.not_mem_nil
  | cons c rest =>
    rw [readNumberC] at hpart
    split at hpart
    · rename_i hzero
      have hrest : colonChar ∈ rest := by
        rcases List.mem_cons.mp hmem with heq | hrest
        · rw [hzero] at heq
          exact absurd heq (by decide)
        · exact hrest
      split at hpart
      · rename_i hx
        split at hpart
        · exact absurd hpart (by simp)
        · cases rest with
          | nil => exact absurd hrest List.not_mem_nil
          | cons x digits =>
            rcases List.mem_cons.mp hrest with heq | hrest
            · rw [← heq, List.head?_cons, Option.some_inj, Option.some_inj] at hx
              exact absurd hx (by decide)
            · exact hdigits (isHexDigit_of_hexNumber hpart) hrest
      · split at hpart
        · rename_i hoctal
          have hcolon := List.all_eq_true.mp hoctal _ hrest
          exact absurd hcolon (by decide)
        · exact absurd hpart (by simp)
    · split at hpart
      · rename_i hdecimal
        have hcolon := List.all_eq_true.mp hdecimal _ hmem
        exact absurd hcolon (by decide)
      · exact absurd hpart (by simp)

theorem colon_not_mem_of_inetAton {text : PyStr} {value : ℕ}
    (haton : inetAton text = some value) : colonChar ∉ text := by
  unfold inetAton at haton
  cases hvalues : (text.splitOn dotChar).mapM readNumberC with
  | none =>
    rw [hvalues] at haton
    exact absurd haton (by simp)
  | some values =>
    have hparts := Loops.mapM_eq_some_iff.mp hvalues
    intro hmem
    have hsplit := @mem_of_splitOn dotChar _ _ hmem
    rcases hsplit with hdot | ⟨part, hpart, hcolon⟩
    · exact absurd hdot (by decide)
    · obtain ⟨number, _, hnumber⟩ := Loops.exists_item_of_mem hparts.flip hpart
      exact colon_not_mem_of_readNumberC hnumber hcolon

theorem colon_not_mem_of_resolveIPv4 {host : PyStr} {value : ℕ}
    (hresolve : resolveIPv4 host = some value) : colonChar ∉ host := by
  rcases Option.or_eq_some_iff.mp hresolve with haton | ⟨_, hdotted⟩
  · exact colon_not_mem_of_inetAton haton
  · split at hdotted
    · rename_i hlast
      intro hmem
      have hsplit : host = host.dropLast ++ [dotChar] :=
        (List.dropLast_append_getLast? _ hlast).symm
      rw [hsplit, List.mem_append, List.mem_singleton] at hmem
      rcases hmem with hfront | hdot
      · exact colon_not_mem_of_inetAton hdotted hfront
      · exact absurd hdot (by decide)
    · exact absurd hdotted (by simp)

theorem parseIPv6_eq_none {text : PyStr} (hcolon : colonChar ∉ text) : parseIPv6 text = none := by
  unfold parseIPv6
  split
  · rfl
  · cases hscope : splitScope text with
    | none => rfl
    | some address =>
      have hsublist : address.Sublist text := by
        unfold splitScope at hscope
        split at hscope
        · simp only at hscope
          split at hscope
          · exact absurd hscope (by simp)
          · rw [← Option.some.inj hscope]
            exact cutAt_fst_sublist percentSign text
        · rw [← Option.some.inj hscope]
      have hnone : colonChar ∉ address := fun hmem => hcolon (hsublist.subset hmem)
      rw [Option.bind_some, List.splitOn_eq_singleton hnone]
      rfl

/-- A host that the resolver reads as an IPv4 address is read as the same one, or as
none at all. -/
theorem ipAddress_of_resolveIPv4 {host : PyStr} {value : ℕ}
    (hresolve : resolveIPv4 host = some value) :
    ipAddress host = if (parseIPv4 host).isSome then some (.v4 value) else none := by
  rw [ipAddress, parseIPv6_eq_none (colon_not_mem_of_resolveIPv4 hresolve)]
  cases hparse : parseIPv4 host with
  | none => rfl
  | some other =>
    rw [resolveIPv4, inetAton_of_parseIPv4 hparse] at hresolve
    obtain rfl := Option.some.inj hresolve
    rfl

end RootSeeker.Python
