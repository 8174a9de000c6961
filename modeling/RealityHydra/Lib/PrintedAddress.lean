import Mathlib.Algebra.Group.Nat.Defs
import RealityHydra.Lib.SocketAddress

/-!
# Reading printed addresses back

Numbers as `toDigits` prints them, addresses in dotted decimal and in groups of
four hexadecimal digits, each before any text that does not continue it.
-/

set_option autoImplicit false

namespace RealityHydra.Lib.SocketAddress

open RealityHydra.Lib.ByteCodec
open RealityHydra.Lib.Reading
open RealityHydra.Lib.Text

/-! ## Dotted decimal -/

theorem readOctet_toDigits (octet : UInt8) {rest : List Char}
    (boundary : ∀ c ∈ rest.head?, isDigit 10 c = false) :
    readOctet (Nat.toDigits 10 octet.toNat ++ rest) = some (octet, rest) := by
  have few : ∀ most ∈ some 3, (Nat.toDigits 10 octet.toNat).length ≤ most := by
    intro most three
    cases three
    apply (Nat.length_toDigits_le_iff (by decide) (by decide)).mpr
    have bound := octet.toNat_lt
    omega
  rw [readOctet, bind_of_some (readNumber_toDigits boundary few octet.toNat_lt)]
  exact congrArg (fun read => some (read, rest)) UInt8.ofNat_toNat

theorem dot_not_digit {rest : List Char} : ∀ c ∈ ('.' :: rest).head?, isDigit 10 c = false := by
  rintro c ⟨⟩
  decide

theorem readIpv4Addr_printed (a b c d : UInt8) {rest : List Char}
    (boundary : ∀ c ∈ rest.head?, isDigit 10 c = false) :
    readIpv4Addr (Nat.toDigits 10 a.toNat ++ '.' :: (Nat.toDigits 10 b.toNat ++
        '.' :: (Nat.toDigits 10 c.toNat ++ '.' :: (Nat.toDigits 10 d.toNat ++ rest)))) =
      some ([a, b, c, d], rest) := by
  have later : ∀ (index : Nat) (octet : UInt8) {after : List Char}, 0 < index →
      (∀ c ∈ after.head?, isDigit 10 c = false) →
      readSeparator '.' index readOctet ('.' :: (Nat.toDigits 10 octet.toNat ++ after)) =
        some (octet, after) := by
    intro index octet after positive boundary
    rw [readSeparator, if_pos positive, bind_of_some (readGiven_cons_self '.' _)]
    exact readOctet_toDigits octet boundary
  have first : readSeparator '.' 0 readOctet (Nat.toDigits 10 a.toNat ++
      '.' :: (Nat.toDigits 10 b.toNat ++ '.' :: (Nat.toDigits 10 c.toNat ++
        '.' :: (Nat.toDigits 10 d.toNat ++ rest)))) = some (a, _) :=
    readOctet_toDigits a dot_not_digit
  rw [readIpv4Addr, bind_of_some first, bind_of_some (later 1 b (by decide) dot_not_digit),
    bind_of_some (later 2 c (by decide) dot_not_digit),
    bind_of_some (later 3 d (by decide) boundary)]
  rfl

/-- A dotted address holds a dot. -/
theorem dot_mem_of_readIpv4Addr {text rest : List Char} {ip : Bytes}
    (read : readIpv4Addr text = some (ip, rest)) : '.' ∈ text := by
  obtain ⟨a, after, first, read⟩ := bind_eq_some read
  obtain ⟨b, _, second, _⟩ := bind_eq_some read
  rw [readSeparator, if_pos (by decide)] at second
  obtain ⟨_, later, dot, _⟩ := bind_eq_some second
  have kept : after <:+ text := readOctet_shortens _ _ _ first
  rw [readGiven_eq_some_iff.mp dot] at kept
  exact kept.subset List.mem_cons_self

/-! ## Groups of four hexadecimal digits -/

def hexPair (byte : UInt8) : List Char :=
  [Nat.digitChar (byte.toNat / 16), Nat.digitChar (byte.toNat % 16)]

/-- The groups from `index` on, each but the first behind a colon. -/
def groupsText : Nat → Bytes → List Char
  | index, high :: low :: rest =>
      (if 0 < index then [':'] else []) ++ (hexPair high ++ hexPair low ++
        groupsText (index + 1) rest)
  | _, _ => []

theorem toDigit_digitChar {nibble : Nat} (small : nibble < 16) :
    toDigit 16 (Nat.digitChar nibble) = some nibble := by
  interval_cases nibble <;> decide

theorem toDigit_hexPair {byte : UInt8} : ∀ c ∈ hexPair byte, isDigit 16 c = true := by
  have bound := byte.toNat_lt
  intro c member
  rcases List.mem_cons.mp member with high | low
  · rw [high, isDigit, toDigit_digitChar (by omega)]
    rfl
  · rw [List.mem_singleton.mp low, isDigit, toDigit_digitChar (by omega)]
    rfl

theorem beValue_pair (high low : UInt8) :
    beValue [high, low] = low.toNat + 256 * high.toNat := by
  simp [beValue, leValue]

theorem digitsValue_group (high low : UInt8) :
    digitsValue 16 (hexPair high ++ hexPair low) = beValue [high, low] := by
  have highBound := high.toNat_lt
  have lowBound := low.toNat_lt
  simp only [digitsValue, hexPair, List.cons_append, List.nil_append, List.foldl_cons,
    List.foldl_nil, toDigit_digitChar (show high.toNat / 16 < 16 by omega),
    toDigit_digitChar (show high.toNat % 16 < 16 by omega),
    toDigit_digitChar (show low.toNat / 16 < 16 by omega),
    toDigit_digitChar (show low.toNat % 16 < 16 by omega), Option.getD_some, beValue_pair]
  omega

theorem readGroup_printed (high low : UInt8) {rest : List Char}
    (boundary : ∀ c ∈ rest.head?, isDigit 16 c = false) :
    readGroup (hexPair high ++ hexPair low ++ rest) =
      some (UInt16.ofNat (beValue [high, low]), rest) := by
  have inside : ∀ c ∈ hexPair high ++ hexPair low, isDigit 16 c = true :=
    List.forall_mem_append.mpr ⟨toDigit_hexPair, toDigit_hexPair⟩
  have few : ∀ most ∈ some 4, (hexPair high ++ hexPair low).length ≤ most := by
    intro most four
    cases four
    simp [hexPair]
  have small : digitsValue 16 (hexPair high ++ hexPair low) < 2 ^ 16 := by
    have highBound := high.toNat_lt
    have lowBound := low.toNat_lt
    rw [digitsValue_group, beValue_pair]
    omega
  have read : readNumber 16 (2 ^ 16) (some 4) true (hexPair high ++ hexPair low ++ rest) =
      some (digitsValue 16 (hexPair high ++ hexPair low), rest) :=
    readNumber_append (by simp [hexPair]) inside boundary few (Or.inl rfl) small
  rw [readGroup, bind_of_some read, digitsValue_group]
  rfl

theorem readEmbedded_none {left index : Nat} {text : List Char} (noDot : '.' ∉ text) :
    readEmbedded left index text = some (none, text) := by
  have failed : readSeparator ':' index readIpv4Addr text = none := by
    apply Option.eq_none_iff_forall_ne_some.mpr
    rintro ⟨ip, rest⟩ read
    unfold readSeparator at read
    split at read
    · obtain ⟨_, after, colon, read⟩ := bind_eq_some read
      apply noDot
      rw [readGiven_eq_some_iff.mp colon]
      exact List.mem_cons_of_mem _ (dot_mem_of_readIpv4Addr read)
    · exact noDot (dot_mem_of_readIpv4Addr read)
  unfold readEmbedded
  split
  · rw [attempt, failed]
  · rfl

theorem groupsText_chars {index : Nat} {bytes : Bytes} :
    ∀ c ∈ groupsText index bytes, c = ':' ∨ isDigit 16 c = true := by
  induction index, bytes using groupsText.induct with
  | case1 index high low rest ih =>
      rw [groupsText, List.forall_mem_append, List.forall_mem_append,
        List.forall_mem_append]
      refine ⟨?_, ⟨?_, ?_⟩, ih⟩
      · split
        · exact List.forall_mem_singleton.mpr (Or.inl rfl)
        · nofun
      · exact fun c member => Or.inr (toDigit_hexPair c member)
      · exact fun c member => Or.inr (toDigit_hexPair c member)
  | case2 index bytes other =>
      rw [groupsText.eq_2 _ _ other]
      nofun

theorem groupsText_boundary (index : Nat) (positive : 0 < index) (bytes : Bytes)
    {rest : List Char} (boundary : ∀ c ∈ rest.head?, isDigit 16 c = false) :
    ∀ c ∈ (groupsText index bytes ++ rest).head?, isDigit 16 c = false := by
  unfold groupsText
  split
  · rw [if_pos positive]
    rintro c ⟨⟩
    decide
  · exact boundary

/-- The groups of printed bytes are read back, all that are asked for. -/
theorem readGroups_printed (left index : Nat) (bytes : Bytes) {rest : List Char}
    (width : bytes.length = 2 * left)
    (boundary : ∀ c ∈ rest.head?, isDigit 16 c = false) (noDot : '.' ∉ rest) :
    readGroups left index (groupsText index bytes ++ rest) =
      some ((pairs bytes, false), rest) := by
  induction left generalizing index bytes with
  | zero =>
      rw [List.eq_nil_of_length_eq_zero width]
      rfl
  | succ left ih =>
      obtain ⟨high, low, later, rfl⟩ : ∃ high low later, bytes = high :: low :: later := by
        match bytes, width with
        | high :: low :: later, _ => exact ⟨high, low, later, rfl⟩
      have shorter : later.length = 2 * left := by
        simp only [List.length_cons] at width
        omega
      have whole : '.' ∉ groupsText index (high :: low :: later) ++ rest := by
        intro dot
        rcases List.mem_append.mp dot with printed | after
        · rcases groupsText_chars '.' printed with colon | digit
          · exact absurd colon (by decide)
          · exact absurd digit (by decide)
        · exact noDot after
      have next := groupsText_boundary (index + 1) index.succ_pos later boundary
      have group : readSeparator ':' index readGroup
          (groupsText index (high :: low :: later) ++ rest) =
            some (UInt16.ofNat (beValue [high, low]),
              groupsText (index + 1) later ++ rest) := by
        have read := readGroup_printed high low next
        rw [groupsText, readSeparator]
        split
        · simp only [List.cons_append, List.nil_append, List.append_assoc] at read ⊢
          rw [bind_of_some (readGiven_cons_self ':' _)]
          exact read
        · simpa only [List.nil_append, List.append_assoc] using read
      have found : attempt (readSeparator ':' index readGroup)
          (groupsText index (high :: low :: later) ++ rest) =
            some (some (UInt16.ofNat (beValue [high, low])),
              groupsText (index + 1) later ++ rest) := by
        rw [attempt, group]
      rw [readGroups, bind_of_some (readEmbedded_none whole)]
      dsimp only
      rw [bind_of_some found]
      dsimp only
      rw [bind_of_some (ih (index + 1) later shorter)]
      rfl

theorem octets_pairs {bytes : Bytes} {count : Nat} (width : bytes.length = 2 * count) :
    octets (pairs bytes) = bytes ∧ (pairs bytes).length = count := by
  induction count generalizing bytes with
  | zero =>
      rw [List.eq_nil_of_length_eq_zero width]
      exact ⟨rfl, rfl⟩
  | succ count ih =>
      match bytes, width with
      | high :: low :: later, width =>
          have shorter : later.length = 2 * count := by
            simp only [List.length_cons] at width
            omega
          obtain ⟨same, length⟩ := ih shorter
          rw [octets] at same
          rw [pairs, octets, List.flatMap_cons, same, beBytes_ofNat_beValue _ rfl,
            List.length_cons, length]
          exact ⟨rfl, rfl⟩

theorem readIpv6Addr_printed (bytes : Bytes) {rest : List Char}
    (width : bytes.length = 16)
    (boundary : ∀ c ∈ rest.head?, isDigit 16 c = false) (noDot : '.' ∉ rest) :
    readIpv6Addr (groupsText 0 bytes ++ rest) = some (bytes, rest) := by
  obtain ⟨same, length⟩ := octets_pairs (show bytes.length = 2 * 8 from width)
  rw [readIpv6Addr, bind_of_some (readGroups_printed 8 0 bytes width boundary noDot)]
  dsimp only
  rw [if_pos length, same]
  rfl

/-! ## A host before a printed port -/

theorem colon_not_mem_toDigits (n : Nat) : ':' ∉ Nat.toDigits 10 n := by
  intro member
  exact absurd (isDigit_of_mem_toDigits member) (by decide)

theorem readPort_printed (port : UInt16) :
    readPort (':' :: Nat.toDigits 10 port.toNat) = some (port, []) := by
  have read : readNumber 10 (2 ^ 16) none true (Nat.toDigits 10 port.toNat ++ []) =
      some (port.toNat, []) := readNumber_toDigits nofun nofun port.toNat_lt
  rw [List.append_nil] at read
  rw [readPort, bind_of_some (readGiven_cons_self ':' _), bind_of_some read]
  exact congrArg (fun read => some (read, [])) UInt16.ofNat_toNat

theorem readPort_whole {text : List Char} {port : UInt16}
    (read : readPort text = some (port, [])) :
    ∃ digits, text = ':' :: digits ∧ ':' ∉ digits ∧
      port = UInt16.ofNat (digitsValue 10 digits) := by
  obtain ⟨_, digits, colon, read⟩ := bind_eq_some read
  obtain ⟨value, after, number, finish⟩ := bind_eq_some read
  cases Option.some.inj finish
  obtain ⟨valueExact, empty⟩ := readNumber_eq_some number
  have inside := List.dropWhile_eq_nil_iff.mp empty.symm
  refine ⟨digits, readGiven_eq_some_iff.mp colon, ?_, ?_⟩
  · intro member
    exact absurd (inside ':' member) (by decide)
  · rw [valueExact, List.takeWhile_eq_self_iff.mpr inside]

/-- What is read up to the closing bracket is a whole text of its own. -/
theorem readBracketed_iff {text after : List Char} {inside : Bytes × UInt32} :
    readBracketed text = some (inside, after) ↔
      ∃ before, text = before ++ ']' :: after ∧ readInside before = some (inside, []) := by
  have closing : ∀ c ∈ (']' :: after).head?, c = ']' := by
    rintro c ⟨⟩
    rfl
  constructor
  · intro read
    obtain ⟨found, rest, begun, read⟩ := bind_eq_some read
    obtain ⟨_, later, bracket, finish⟩ := bind_eq_some read
    cases Option.some.inj finish
    rw [readGiven_eq_some_iff.mp bracket] at begun
    obtain ⟨before, whole⟩ := readInside_shortens _ _ _ begun
    refine ⟨before, whole.symm, ?_⟩
    rw [← whole] at begun
    obtain ⟨left, alone, same⟩ := (readInside_stopsAt.eq_some_iff closing).mp begun
    rw [alone, List.append_left_eq_self.mp same.symm]
  · intro bracketed
    obtain ⟨before, rfl, read⟩ := bracketed
    have begun := (readInside_stopsAt.eq_some_iff closing).mpr ⟨[], read, rfl⟩
    rw [readBracketed, bind_of_some begun]
    exact bind_of_some (readGiven_cons_self ']' after)

theorem head_of_readBracketed {text after : List Char} {inside : Bytes × UInt32}
    (read : readBracketed text = some (inside, after)) : ∃ rest, text = '[' :: rest := by
  obtain ⟨_, _, begun, _⟩ := bind_eq_some read
  obtain ⟨_, rest, bracket, _⟩ := bind_eq_some begun
  exact ⟨rest, readGiven_eq_some_iff.mp bracket⟩

theorem readSocketAddrV4_bracket (rest : List Char) :
    readSocketAddrV4 ('[' :: rest) = none := rfl

/-- A port is only read from the last colon on. -/
theorem readPort_cut {host front after : List Char} {port read : UInt16}
    (whole : host ++ ':' :: Nat.toDigits 10 port.toNat = front ++ after)
    (portRead : readPort after = some (read, [])) : front = host ∧ read = port := by
  obtain ⟨digits, rfl, noColon, _⟩ := readPort_whole portRead
  obtain ⟨rfl, rfl⟩ := append_cons_inj_of_not_mem (colon_not_mem_toDigits port.toNat)
    noColon whole
  rw [readPort_printed] at portRead
  cases Option.some.inj portRead
  exact ⟨rfl, rfl⟩

/-- The text up to the port alone decides how a socket address is read. -/
theorem parse_hostPort_iff (host : List Char) (port : UInt16) (addr : SocketAddr) :
    parseWith readSocketAddr (host ++ ':' :: Nat.toDigits 10 port.toNat) = some addr ↔
      (∃ ip, parseWith readIpv4Addr host = some ip ∧ addr = .v4 ip port) ∨
        ∃ inside, parseWith readBracketed host = some inside ∧
          addr = .v6 inside.1 inside.2 port := by
  have stops : StopsAt (· = ':') readIpv4Addr := by
    apply readIpv4Addr_stopsAt (by decide)
    intro c isColon
    rw [isColon]
    decide
  have colon : ∀ c ∈ (':' :: Nat.toDigits 10 port.toNat).head?, c = ':' := by
    intro c isHead
    exact (Option.some.inj isHead).symm
  simp only [parseWith_eq_some_iff]
  constructor
  · intro read
    rcases Option.or_eq_some_iff.mp read with plain | ⟨_, bracketed⟩
    · obtain ⟨ip, after, ipRead, rest⟩ := bind_eq_some plain
      obtain ⟨found, _, portRead, finish⟩ := bind_eq_some rest
      cases Option.some.inj finish
      obtain ⟨left, alone, rfl⟩ := (stops.eq_some_iff colon).mp ipRead
      obtain ⟨front, cut⟩ := readIpv4Addr_shortens _ _ _ alone
      have joined : host ++ ':' :: Nat.toDigits 10 port.toNat =
          front ++ (left ++ ':' :: Nat.toDigits 10 port.toNat) := by
        rw [← List.append_assoc, cut]
      obtain ⟨whole, rfl⟩ := readPort_cut joined portRead
      rw [whole] at cut
      rw [List.append_right_eq_self.mp cut] at alone
      exact Or.inl ⟨ip, alone, rfl⟩
    · obtain ⟨inside, after, bracketRead, rest⟩ := bind_eq_some bracketed
      obtain ⟨found, _, portRead, finish⟩ := bind_eq_some rest
      cases Option.some.inj finish
      obtain ⟨before, cut, insideRead⟩ := readBracketed_iff.mp bracketRead
      rw [List.append_cons before] at cut
      obtain ⟨whole, rfl⟩ := readPort_cut cut portRead
      exact Or.inr ⟨inside, readBracketed_iff.mpr ⟨before, whole.symm, insideRead⟩, rfl⟩
  · rintro (⟨ip, alone, rfl⟩ | ⟨inside, alone, rfl⟩)
    · have v4 := (stops.eq_some_iff colon).mpr ⟨[], alone, rfl⟩
      have plain : readSocketAddrV4 (host ++ ':' :: Nat.toDigits 10 port.toNat) =
          some (.v4 ip port, []) := by
        rw [readSocketAddrV4, bind_of_some v4]
        exact bind_of_some (readPort_printed port)
      rw [readSocketAddr, plain]
      rfl
    · obtain ⟨rest, starts⟩ := head_of_readBracketed alone
      obtain ⟨before, cut, insideRead⟩ := readBracketed_iff.mp alone
      have bracketed : readSocketAddrV6 (host ++ ':' :: Nat.toDigits 10 port.toNat) =
          some (.v6 inside.1 inside.2 port, []) := by
        have begun : readBracketed (host ++ ':' :: Nat.toDigits 10 port.toNat) =
            some (inside, ':' :: Nat.toDigits 10 port.toNat) := by
          apply readBracketed_iff.mpr ⟨before, ?_, insideRead⟩
          rw [cut, List.append_assoc, List.singleton_append]
        rw [readSocketAddrV6, bind_of_some begun]
        exact bind_of_some (readPort_printed port)
      rw [readSocketAddr, bracketed, starts, List.cons_append, readSocketAddrV4_bracket]
      rfl

theorem parseU16_toDigits (port : UInt16) :
    parseU16 (Nat.toDigits 10 port.toNat) = some port := by
  have noSign : (Nat.toDigits 10 port.toNat).dropPrefix? ['+'] = none := by
    cases digits : Nat.toDigits 10 port.toNat with
    | nil => rfl
    | cons head rest =>
        have digit : isDigit 10 head = true := by
          apply isDigit_of_mem_toDigits (n := port.toNat)
          rw [digits]
          exact List.mem_cons_self
        have other : head ≠ '+' := by
          rintro rfl
          exact absurd digit (by decide)
        simp [List.dropPrefix?, other]
  have inside : (Nat.toDigits 10 port.toNat).all (isDigit 10) = true :=
    List.all_eq_true.mpr fun c => isDigit_of_mem_toDigits
  rw [parseU16, noSign, Option.getD_none, if_neg Nat.toDigits_ne_nil, if_pos inside,
    digitsValue_toDigits, if_pos port.toNat_lt, UInt16.ofNat_toNat]

/-- What a host before a printed port is resolved from. -/
def resolvedHost (host : String) (port : UInt16) : Resolved :=
  match parseWith readIpv4Addr host.toList with
  | some ip => .address (.v4 ip port)
  | none =>
      match parseWith readBracketed host.toList with
      | some (ip, scopeId) => .address (.v6 ip scopeId port)
      | none => .lookup host port

theorem toSocketAddrs_hostPort (host : String) (port : UInt16) :
    toSocketAddrs (host ++ ":" ++ toString port) = some (resolvedHost host port) := by
  have text : (host ++ ":" ++ toString port).toList =
      host.toList ++ ':' :: Nat.toDigits 10 port.toNat := by
    rw [String.toList_append, String.toList_append, List.append_assoc]
    exact congrArg _ (congrArg _ Nat.toList_repr)
  have parsed := parse_hostPort_iff host.toList port
  rw [toSocketAddrs, text, resolvedHost]
  cases v4 : parseWith readIpv4Addr host.toList with
  | some ip =>
      rw [(parsed (.v4 ip port)).mpr (Or.inl ⟨ip, v4, rfl⟩)]
  | none =>
      cases v6 : parseWith readBracketed host.toList with
      | some inside =>
          rw [(parsed (.v6 inside.1 inside.2 port)).mpr (Or.inr ⟨inside, v6, rfl⟩)]
      | none =>
          have neither : parseWith readSocketAddr
              (host.toList ++ ':' :: Nat.toDigits 10 port.toNat) = none := by
            apply Option.eq_none_iff_forall_ne_some.mpr
            intro addr read
            rcases (parsed addr).mp read with ⟨ip, found, _⟩ | ⟨inside, found, _⟩
            · rw [v4] at found
              contradiction
            · rw [v6] at found
              contradiction
          rw [neither, rsplitOnce_append (colon_not_mem_toDigits port.toNat)]
          simp [parseU16_toDigits]

end RealityHydra.Lib.SocketAddress
