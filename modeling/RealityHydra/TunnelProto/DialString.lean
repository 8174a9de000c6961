import RealityHydra.Lib.PrintedAddress
import RealityHydra.TunnelProto.Wire

/-!
# What a displayed target is resolved from

The string a target displays as is dialled by the exit node and keys the
client's sticky selections.  Resolving it gives the target back, and two
targets share it only where a domain spells the other's address.
-/

set_option autoImplicit false

namespace RealityHydra.TunnelProto

open RealityHydra.Lib.ByteCodec
open RealityHydra.Lib.Reading
open RealityHydra.Lib.SocketAddress
open RealityHydra.Lib.Text

/-- The part of the display before the port. -/
def Host.text : Host → String
  | .v4 a =>
      toString (a.get 0) ++ "." ++ toString (a.get 1) ++ "." ++ toString (a.get 2) ++ "." ++
        toString (a.get 3)
  | .domain d => d
  | .v6 a => "[" ++ String.intercalate ":" (hexGroups a.toList) ++ "]"

theorem display_eq (target : Target) :
    target.display = target.host.text ++ ":" ++ toString target.port := by
  obtain ⟨host, port⟩ := target
  cases host with
  | v4 a => rfl
  | domain d => rfl
  | v6 a =>
      simp only [Target.display, Host.text, String.append_assoc]
      rfl

theorem resolve_display (target : Target) :
    toSocketAddrs target.display = some (resolvedHost target.host.text target.port) := by
  rw [display_eq, toSocketAddrs_hostPort]

/-! ## The address forms -/

theorem vector_four {α : Type} (a : Vector α 4) :
    a.toList = [a.get 0, a.get 1, a.get 2, a.get 3] := by
  obtain ⟨⟨items⟩, width⟩ := a
  match items, width with
  | [_, _, _, _], _ => rfl

theorem v4_text (a : Vector UInt8 4) :
    (Host.v4 a).text.toList = Nat.toDigits 10 (a.get 0).toNat ++ '.' ::
      (Nat.toDigits 10 (a.get 1).toNat ++ '.' :: (Nat.toDigits 10 (a.get 2).toNat ++
        '.' :: (Nat.toDigits 10 (a.get 3).toNat ++ []))) := by
  have digits : ∀ octet : UInt8, (toString octet).toList = Nat.toDigits 10 octet.toNat :=
    fun octet => Nat.toList_repr
  simp [Host.text, digits, String.toList_append]

theorem v4_text_read (a : Vector UInt8 4) :
    parseWith readIpv4Addr (Host.v4 a).text.toList = some a.toList := by
  apply parseWith_eq_some_iff.mpr
  have ended : ∀ c ∈ ([] : List Char).head?, isDigit 10 c = false := by simp
  rw [v4_text, readIpv4Addr_printed _ _ _ _ ended, vector_four]

theorem hexGroups_later (index : Nat) (positive : 0 < index) (bytes : Bytes) :
    groupsText index bytes = (hexGroups bytes).flatMap fun group => ':' :: group.toList := by
  induction index, bytes using groupsText.induct with
  | case1 index high low rest ih =>
      rw [groupsText, if_pos positive, hexGroups, List.flatMap_cons, ih index.succ_pos]
      simp [hexByte, hexPair, String.toList_append]
  | case2 index bytes other =>
      rw [groupsText.eq_2 _ _ other, hexGroups.eq_2 _ other]
      rfl

theorem intercalate_hexGroups (bytes : Bytes) :
    (String.intercalate ":" (hexGroups bytes)).toList = groupsText 0 bytes := by
  have joined : ∀ (first : String) (others : List String),
      (String.intercalate ":" (first :: others)).toList =
        first.toList ++ others.flatMap fun group => ':' :: group.toList := by
    intro first others
    induction others generalizing first with
    | nil => simp
    | cons next others ih =>
        rw [String.intercalate_cons_cons, String.toList_append, String.toList_append, ih]
        simp
  match bytes with
  | [] => simp [hexGroups, groupsText]
  | [_] => simp [hexGroups, groupsText]
  | high :: low :: rest =>
      rw [hexGroups, joined, groupsText, hexGroups_later _ (by decide)]
      simp [hexByte, hexPair, String.toList_append]

theorem v6_text (a : Vector UInt8 16) :
    (Host.v6 a).text.toList = '[' :: (groupsText 0 a.toList ++ [']']) := by
  simp only [Host.text, String.toList_append, intercalate_hexGroups]
  rfl

theorem v6_text_not_v4 (a : Vector UInt8 16) :
    parseWith readIpv4Addr (Host.v6 a).text.toList = none := by
  rw [v6_text]
  rfl

theorem v6_text_read (a : Vector UInt8 16) :
    parseWith readBracketed (Host.v6 a).text.toList = some (a.toList, 0) := by
  have ended : ∀ c ∈ ([] : List Char).head?, isDigit 16 c = false := by simp
  have ip := readIpv6Addr_printed a.toList Vector.length_toList ended List.not_mem_nil
  rw [List.append_nil] at ip
  have inside : readInside ('[' :: groupsText 0 a.toList) = some ((a.toList, 0), []) := by
    rw [readInside, bind_of_some (readGiven_cons_self '[' _), bind_of_some ip]
    rfl
  apply parseWith_eq_some_iff.mpr
  rw [v6_text]
  exact readBracketed_iff.mpr ⟨'[' :: groupsText 0 a.toList, rfl, inside⟩

theorem resolved_v4 (a : Vector UInt8 4) (port : UInt16) :
    resolvedHost (Host.v4 a).text port = .address (.v4 a.toList port) := by
  rw [resolvedHost, v4_text_read]

theorem resolved_v6 (a : Vector UInt8 16) (port : UInt16) :
    resolvedHost (Host.v6 a).text port = .address (.v6 a.toList 0 port) := by
  rw [resolvedHost, v6_text_not_v4, v6_text_read]

/-! ## Shared display strings -/

/-- A domain that spells the other target's address. -/
def Target.Spells (target other : Target) : Prop :=
  ∃ d, target.host = .domain d ∧ target.port = other.port ∧
    ((∃ a, other.host = .v4 a ∧ parseWith readIpv4Addr d.toList = some a.toList) ∨
      ∃ a, other.host = .v6 a ∧ parseWith readBracketed d.toList = some (a.toList, 0))

theorem toDigits_injective {left right : UInt16}
    (same : Nat.toDigits 10 left.toNat = Nat.toDigits 10 right.toNat) : left = right := by
  apply UInt16.toNat_inj.mp
  rw [← digitsValue_toDigits left.toNat, same, digitsValue_toDigits]

/-- The display is cut at its last colon in one way. -/
theorem display_parts {target other : Target} (same : target.display = other.display) :
    target.host.text = other.host.text ∧ target.port = other.port := by
  have chars : ∀ t : Target, t.display.toList =
      t.host.text.toList ++ ':' :: Nat.toDigits 10 t.port.toNat := by
    intro t
    rw [display_eq, String.toList_append, String.toList_append, List.append_assoc]
    exact congrArg _ (congrArg _ Nat.toList_repr)
  have cut := congrArg String.toList same
  rw [chars, chars] at cut
  obtain ⟨hosts, ports⟩ := append_cons_inj_of_not_mem (colon_not_mem_toDigits _)
    (colon_not_mem_toDigits _) cut
  exact ⟨String.toList_injective hosts, toDigits_injective ports⟩

/-- One text is the text of one address. -/
theorem host_text_injective {left right : Host} (same : left.text = right.text) :
    left = right ∨ (∃ d, left = .domain d) ∨ ∃ d, right = .domain d := by
  cases left with
  | domain d => exact Or.inr (Or.inl ⟨d, rfl⟩)
  | v4 a =>
      cases right with
      | domain d => exact Or.inr (Or.inr ⟨d, rfl⟩)
      | v4 b =>
          have read := v4_text_read a
          rw [same, v4_text_read, Option.some.injEq] at read
          rw [Vector.toList_inj.mp read]
          exact Or.inl rfl
      | v6 b =>
          have read := v4_text_read a
          rw [same, v6_text_not_v4] at read
          contradiction
  | v6 a =>
      cases right with
      | domain d => exact Or.inr (Or.inr ⟨d, rfl⟩)
      | v4 b =>
          have read := v4_text_read b
          rw [← same, v6_text_not_v4] at read
          contradiction
      | v6 b =>
          have read := v6_text_read a
          rw [same, v6_text_read, Option.some.injEq, Prod.mk.injEq] at read
          rw [Vector.toList_inj.mp read.1]
          exact Or.inl rfl

theorem spells_of_domain {d : String} {port : UInt16} {other : Target}
    (texts : d = other.host.text) (ports : port = other.port) :
    Target.mk (.domain d) port = other ∨ (Target.mk (.domain d) port).Spells other := by
  obtain ⟨host, otherPort⟩ := other
  cases host with
  | domain e =>
      left
      rw [texts, ports]
      rfl
  | v4 a =>
      right
      refine ⟨d, rfl, ports, Or.inl ⟨a, rfl, ?_⟩⟩
      rw [texts, v4_text_read]
  | v6 a =>
      right
      refine ⟨d, rfl, ports, Or.inr ⟨a, rfl, ?_⟩⟩
      rw [texts, v6_text_read]

/-- Resolving what a target displays gives the target: its port, and its address
bytes or its domain unless the domain itself is an address in text.  Two targets
therefore share a display only where one is such a domain for the other. -/
theorem dial_string_denotes_target :
    (∀ (a : Vector UInt8 4) (port : UInt16),
      toSocketAddrs (Target.mk (.v4 a) port).display =
        some (.address (.v4 a.toList port))) ∧
    (∀ (a : Vector UInt8 16) (port : UInt16),
      toSocketAddrs (Target.mk (.v6 a) port).display =
        some (.address (.v6 a.toList 0 port))) ∧
    (∀ (d : String) (port : UInt16),
      toSocketAddrs (Target.mk (.domain d) port).display = some (
        match parseWith readIpv4Addr d.toList with
        | some ip => .address (.v4 ip port)
        | none =>
            match parseWith readBracketed d.toList with
            | some (ip, scopeId) => .address (.v6 ip scopeId port)
            | none => .lookup d port)) ∧
    (∀ target other : Target, target.display = other.display →
      target = other ∨ target.Spells other ∨ other.Spells target) := by
  refine ⟨?_, ?_, ?_, ?_⟩
  · intro a port
    rw [resolve_display, resolved_v4]
  · intro a port
    rw [resolve_display, resolved_v6]
  · intro d port
    exact resolve_display ⟨.domain d, port⟩
  · intro target other same
    obtain ⟨texts, ports⟩ := display_parts same
    obtain ⟨host, port⟩ := target
    obtain ⟨otherHost, otherPort⟩ := other
    rcases host_text_injective texts with hosts | ⟨d, hosts⟩ | ⟨d, hosts⟩
    · dsimp only at hosts ports
      rw [hosts, ports]
      exact Or.inl rfl
    · dsimp only at hosts
      subst hosts
      exact (spells_of_domain texts ports).imp_right Or.inl
    · dsimp only at hosts
      subst hosts
      exact (spells_of_domain texts.symm ports.symm).elim
        (fun equal => Or.inl equal.symm) (fun spells => Or.inr (Or.inr spells))

end RealityHydra.TunnelProto
