import RealityHydra.Lib.Text

/-!
# Certificate names

A SAN covers an SNI by the label rules for dNSNames: letter case and trailing
dots do not count, and a leftmost `*` stands for one label before at least two.
-/

set_option autoImplicit false

namespace RealityHydra.HealthCheck

open RealityHydra.Lib.Text

/-- `trim_end_matches('.').to_ascii_lowercase()` -/
def normalize (name : String) : List Char :=
  (name.toList.rdropWhile (· = '.')).map Char.toLower

def dnsNameMatches (sni pattern : String) : Bool :=
  let sni := normalize sni
  let pattern := normalize pattern
  if sni.isEmpty || pattern.isEmpty then false
  else
    match pattern with
    | '*' :: '.' :: rest =>
        -- a bare `*.com` is too broad
        if rest.isEmpty || !rest.contains '.' then false
        else
          match splitOnce '.' sni with
          | some (first, suffix) => !first.isEmpty && suffix == rest
          | none => false
    | _ => sni == pattern

def sniMatchesAny (sni : String) (sanDnsNames : List String) : Bool :=
  sanDnsNames.any fun san => dnsNameMatches sni san

def labels (name : String) : List (List Char) := (normalize name).splitOn '.'

/-- The dNSName rules. -/
def Covers (sni pattern : String) : Prop :=
  normalize sni ≠ [] ∧ normalize pattern ≠ [] ∧
    match labels pattern with
    | ['*'] :: next :: further =>
        further ≠ [] ∧ ∃ label, label ≠ [] ∧ labels sni = label :: next :: further
    | exact => labels sni = exact

/-- The wildcard form shows in the labels. -/
theorem splitOn_wildcard {rest : List Char} :
    ('*' :: '.' :: rest).splitOn '.' = ['*'] :: rest.splitOn '.' :=
  splitOn_of_splitOnce (by simp [splitOnce])

theorem wildcard_of_splitOn {text next : List Char} {further : List (List Char)}
    (split : text.splitOn '.' = ['*'] :: next :: further) :
    ∃ rest, text = '*' :: '.' :: rest := by
  cases cut : splitOnce '.' text with
  | none =>
      rw [List.splitOn_eq_singleton (splitOnce_eq_none_iff.mp cut)] at split
      cases split
  | some parts =>
      rw [splitOn_of_splitOnce cut] at split
      obtain ⟨same, _⟩ := splitOnce_eq_some_iff.mp cut
      rw [(List.cons.inj split).1] at same
      exact ⟨parts.2, same⟩

/-- Below the wildcard, one label and then exactly what follows it. -/
theorem wildcard_covers_iff {sni rest : List Char} :
    (match splitOnce '.' sni with
      | some (first, suffix) => !first.isEmpty && suffix == rest
      | none => false) = true ↔
      ∃ label, label ≠ [] ∧ sni.splitOn '.' = label :: rest.splitOn '.' := by
  cases cut : splitOnce '.' sni with
  | none =>
      have single := List.splitOn_eq_singleton (splitOnce_eq_none_iff.mp cut)
      refine iff_of_false (by simp) ?_
      intro covered
      obtain ⟨label, _, split⟩ := covered
      rw [single] at split
      exact List.splitOn_ne_nil _ _ (List.cons.inj split).2.symm
  | some parts =>
      rw [splitOn_of_splitOnce cut]
      simp only [Bool.and_eq_true, Bool.not_eq_true', List.isEmpty_eq_false_iff, beq_iff_eq,
        List.cons.injEq]
      refine ⟨?_, ?_⟩
      · intro covered
        obtain ⟨nonempty, same⟩ := covered
        exact ⟨parts.1, nonempty, rfl, by rw [same]⟩
      · intro covered
        obtain ⟨label, nonempty, same, sameRest⟩ := covered
        rw [same]
        exact ⟨nonempty, splitOn_injective sameRest⟩

/-- Only a wildcard pattern is compared otherwise than label by label. -/
theorem not_wildcard_iff {sni pattern : List Char}
    (plain : ∀ rest, pattern ≠ '*' :: '.' :: rest) :
    sni == pattern ↔
      match pattern.splitOn '.' with
      | ['*'] :: next :: further =>
          further ≠ [] ∧ ∃ label, label ≠ [] ∧ sni.splitOn '.' = label :: next :: further
      | exact => sni.splitOn '.' = exact := by
  rw [beq_iff_eq]
  split
  · rename_i next further split
    obtain ⟨rest, same⟩ := wildcard_of_splitOn split
    exact absurd same (plain rest)
  · exact ⟨fun same => by rw [same], splitOn_injective⟩

theorem wildcard_iff {sni rest : List Char} :
    (if rest.isEmpty || !rest.contains '.' then false
      else
        match splitOnce '.' sni with
        | some (first, suffix) => !first.isEmpty && suffix == rest
        | none => false) = true ↔
      match ['*'] :: rest.splitOn '.' with
      | ['*'] :: next :: further =>
          further ≠ [] ∧ ∃ label, label ≠ [] ∧ sni.splitOn '.' = label :: next :: further
      | exact => sni.splitOn '.' = exact := by
  by_cases dot : '.' ∈ rest
  · have long : (rest.isEmpty || !rest.contains '.') = false := by
      simp [dot, List.ne_nil_of_mem dot]
    rw [long, if_neg Bool.false_ne_true, wildcard_covers_iff]
    cases split : rest.splitOn '.' with
    | nil => exact (List.splitOn_ne_nil _ _ split).elim
    | cons next further =>
        have more : further ≠ [] := by
          rintro rfl
          exact (splitOn_singleton_iff.mp split).2 dot
        simp [more]
  · have short : (rest.isEmpty || !rest.contains '.') = true := by simp [dot]
    rw [short, if_pos rfl, List.splitOn_eq_singleton dot]
    simp

/-- The code's comparison of texts is the comparison of labels. -/
theorem dnsNameMatches_iff (sni pattern : String) :
    dnsNameMatches sni pattern = true ↔ Covers sni pattern := by
  unfold dnsNameMatches Covers labels
  generalize normalize sni = sni
  generalize normalize pattern = pattern
  by_cases empty : sni = [] ∨ pattern = []
  · rcases empty with rfl | rfl
    · simp
    · simp
  · obtain ⟨namedSni, namedPattern⟩ := not_or.mp empty
    have named : (sni.isEmpty || pattern.isEmpty) = false := by simp [namedSni, namedPattern]
    dsimp only
    rw [named, if_neg Bool.false_ne_true]
    simp only [ne_eq, namedSni, not_false_eq_true, namedPattern, true_and]
    split
    · rename_i rest
      rw [splitOn_wildcard]
      exact wildcard_iff
    · rename_i plain
      exact not_wildcard_iff plain

theorem sniMatchesAny_iff (sni : String) (sanDnsNames : List String) :
    sniMatchesAny sni sanDnsNames = true ↔ ∃ san ∈ sanDnsNames, Covers sni san := by
  simp only [sniMatchesAny, List.any_eq_true, dnsNameMatches_iff]

/-! ## Letter case and trailing dots -/

/-- The same name up to letter case and trailing dots. -/
def SameName (left right : String) : Prop :=
  ∃ (core other : List Char) (dots more : Nat),
    left.toList = core ++ List.replicate dots '.' ∧
      right.toList = other ++ List.replicate more '.' ∧
      core.map Char.toLower = other.map Char.toLower

theorem toLower_eq_dot {c : Char} (lowered : c.toLower = '.') : c = '.' := by
  unfold Char.toLower at lowered
  split at lowered
  · rename_i upper
    have lower : 'A'.val.toNat ≤ c.val.toNat := UInt32.le_iff_toNat_le.mp upper.1
    have higher : c.val.toNat ≤ 'Z'.val.toNat := UInt32.le_iff_toNat_le.mp upper.2
    have value := congrArg (fun c : Char => c.val.toNat) lowered
    simp only [UInt32.toNat_add] at value
    simp at value lower higher
    omega
  · exact lowered

theorem rdropWhile_append_dots (core : List Char) (dots : Nat) :
    (core ++ List.replicate dots '.').rdropWhile (· = '.') = core.rdropWhile (· = '.') := by
  induction dots with
  | zero => rw [List.replicate_zero, List.append_nil]
  | succ dots ih =>
      rw [List.replicate_succ', ← List.append_assoc, List.rdropWhile_concat_pos _ _ _ (by simp), ih]

/-- Lowercasing moves no dot, so stripping commutes with it. -/
theorem map_toLower_rdropWhile (core : List Char) :
    (core.rdropWhile (· = '.')).map Char.toLower =
      (core.map Char.toLower).rdropWhile (· = '.') := by
  induction core using List.reverseRecOn with
  | nil => rfl
  | append_singleton core c ih =>
      rw [List.map_append, List.map_singleton]
      by_cases dot : c = '.'
      · have lowered : c.toLower = '.' := by
          rw [dot]
          rfl
        rw [List.rdropWhile_concat_pos _ _ _ (by simpa using dot),
          List.rdropWhile_concat_pos _ _ _ (by simpa using lowered), ih]
      · have lowered : c.toLower ≠ '.' := fun same => dot (toLower_eq_dot same)
        rw [List.rdropWhile_concat_neg _ _ _ (by simpa using dot),
          List.rdropWhile_concat_neg _ _ _ (by simpa using lowered), List.map_append,
          List.map_singleton]

theorem SameName.normalize {left right : String} (same : SameName left right) :
    normalize left = normalize right := by
  obtain ⟨core, other, dots, more, leftText, rightText, letters⟩ := same
  rw [HealthCheck.normalize, HealthCheck.normalize, leftText, rightText,
    rdropWhile_append_dots, rdropWhile_append_dots, map_toLower_rdropWhile,
    map_toLower_rdropWhile, letters]

theorem dnsNameMatches_congr {sni other pattern variant : String} (name : SameName sni other)
    (san : SameName pattern variant) : dnsNameMatches sni pattern = dnsNameMatches other variant := by
  rw [dnsNameMatches, dnsNameMatches, name.normalize, san.normalize]

theorem sniMatchesAny_congr {sni other : String} {sans variants : List String}
    (name : SameName sni other) (renamed : List.Forall₂ SameName sans variants) :
    sniMatchesAny sni sans = sniMatchesAny other variants := by
  induction renamed with
  | nil => rfl
  | cons san _ ih =>
      rw [sniMatchesAny, sniMatchesAny] at ih
      rw [sniMatchesAny, sniMatchesAny, List.any_cons, List.any_cons, ih,
        dnsNameMatches_congr name san]

/-! ## What a wildcard leaves out -/

/-- A wildcard needs two labels behind it and exactly one before them. -/
theorem wildcard_covers {sni pattern : String} {suffix : List (List Char)}
    (nonempty : suffix ≠ []) (wildcard : labels pattern = ['*'] :: suffix)
    (covers : Covers sni pattern) :
    2 ≤ suffix.length ∧ ∃ label, label ≠ [] ∧ labels sni = label :: suffix := by
  obtain ⟨_, _, rule⟩ := covers
  rw [wildcard] at rule
  cases suffix with
  | nil => exact absurd rfl nonempty
  | cons next further =>
      obtain ⟨more, label, named, whole⟩ := rule
      have counted := List.length_pos_iff.mpr more
      exact ⟨by rw [List.length_cons]; omega, label, named, whole⟩

/-- The matcher is the label rules.  A wildcard covers neither its bare suffix,
nor anything two labels above it, nor anything when its suffix is one label, and
letter case and trailing dots count on neither side. -/
theorem san_matching_follows_label_rules :
    (∀ (sni : String) (sans : List String),
      sniMatchesAny sni sans = true ↔ ∃ san ∈ sans, Covers sni san) ∧
    (∀ (sni pattern : String) (suffix : List (List Char)), suffix ≠ [] →
      labels pattern = ['*'] :: suffix →
      (labels sni = suffix ∨ (∃ label above more, labels sni = label :: above :: (more ++ suffix)) ∨
        suffix.length = 1) →
      dnsNameMatches sni pattern = false) ∧
    ∀ (sni other : String) (sans variants : List String), SameName sni other →
      List.Forall₂ SameName sans variants →
      sniMatchesAny sni sans = sniMatchesAny other variants := by
  refine ⟨sniMatchesAny_iff, ?_, fun sni other sans variants => sniMatchesAny_congr⟩
  intro sni pattern suffix nonempty wildcard outside
  apply Bool.eq_false_iff.mpr
  intro matched
  obtain ⟨wide, label, _, whole⟩ :=
    wildcard_covers nonempty wildcard ((dnsNameMatches_iff ..).mp matched)
  have counted := congrArg List.length whole
  rcases outside with bare | ⟨first, above, more, deeper⟩ | single
  · rw [bare, List.length_cons] at counted
    omega
  · rw [deeper, List.length_cons, List.length_cons, List.length_append, List.length_cons] at counted
    omega
  · omega

end RealityHydra.HealthCheck
