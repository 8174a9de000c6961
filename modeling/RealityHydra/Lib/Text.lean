import Mathlib.Data.List.DropRight

/-!
# Text as lists of characters

Cutting a text at its first separator, at its last, and at all of them; dropping
what surrounds it; and its lines.
-/

set_option autoImplicit false

namespace RealityHydra.Lib.Text

variable {α : Type} [DecidableEq α]

/-- The parts before and after the first `separator`. -/
def splitOnce (separator : α) : List α → Option (List α × List α)
  | [] => none
  | head :: rest =>
      if head = separator then some ([], rest)
      else (splitOnce separator rest).map fun parts => (head :: parts.1, parts.2)

theorem splitOnce_eq_none_iff {separator : α} {text : List α} :
    splitOnce separator text = none ↔ separator ∉ text := by
  induction text with
  | nil => simp [splitOnce]
  | cons head rest ih =>
      rw [splitOnce, List.mem_cons]
      split
      · rename_i same
        simp [same]
      · rename_i different
        simp [ih, Ne.symm different]

theorem splitOnce_eq_some_iff {separator : α} {text before after : List α} :
    splitOnce separator text = some (before, after) ↔
      text = before ++ separator :: after ∧ separator ∉ before := by
  induction text generalizing before with
  | nil => simp [splitOnce]
  | cons head rest ih =>
      rw [splitOnce]
      split
      · rename_i same
        subst same
        cases before with
        | nil => simp
        | cons first others =>
            refine iff_of_false (by simp) ?_
            rintro ⟨same, notIn⟩
            exact notIn (List.mem_cons.mpr (Or.inl (List.cons.inj same).1))
      · rename_i different
        rw [Option.map_eq_some_iff]
        cases before with
        | nil => simp [different]
        | cons first others =>
            simp only [Prod.exists, Prod.mk.injEq, List.cons.injEq, List.cons_append,
              List.mem_cons, not_or]
            refine ⟨?_, ?_⟩
            · rintro ⟨front, back, cut, ⟨rfl, rfl⟩, rfl⟩
              obtain ⟨same, notIn⟩ := ih.mp cut
              exact ⟨⟨rfl, same⟩, Ne.symm different, notIn⟩
            · rintro ⟨⟨rfl, same⟩, _, notIn⟩
              exact ⟨others, after, ih.mpr ⟨same, notIn⟩, ⟨rfl, rfl⟩, rfl⟩

/-- The parts before and after the last `separator`. -/
def rsplitOnce (separator : α) (text : List α) : Option (List α × List α) :=
  (splitOnce separator text.reverse).map fun parts => (parts.2.reverse, parts.1.reverse)

theorem rsplitOnce_append {separator : α} {before after : List α}
    (last : separator ∉ after) :
    rsplitOnce separator (before ++ separator :: after) = some (before, after) := by
  have cut : splitOnce separator (before ++ separator :: after).reverse =
      some (after.reverse, before.reverse) := by
    apply splitOnce_eq_some_iff.mpr ⟨?_, ?_⟩
    · simp
    · rwa [List.mem_reverse]
  rw [rsplitOnce, cut]
  simp

/-- A text is cut at its last `separator` in one way. -/
theorem append_cons_inj_of_not_mem {separator : α} {before after front back : List α}
    (last : separator ∉ after) (final : separator ∉ back)
    (same : before ++ separator :: after = front ++ separator :: back) :
    before = front ∧ after = back := by
  have cut : rsplitOnce separator (front ++ separator :: back) = some (before, after) := by
    rw [← same, rsplitOnce_append last]
  rw [rsplitOnce_append final, Option.some.injEq, Prod.mk.injEq] at cut
  exact ⟨cut.1.symm, cut.2.symm⟩

theorem splitOn_injective {separator : α} {left right : List α}
    (same : left.splitOn separator = right.splitOn separator) : left = right := by
  calc left = [separator].intercalate (left.splitOn separator) :=
        (List.intercalate_splitOn separator).symm
    _ = right := by rw [same, List.intercalate_splitOn]

/-- The first part is what comes before the first separator. -/
theorem splitOn_of_splitOnce {separator : α} {text before after : List α}
    (cut : splitOnce separator text = some (before, after)) :
    text.splitOn separator = before :: after.splitOn separator := by
  obtain ⟨rfl, notIn⟩ := splitOnce_eq_some_iff.mp cut
  exact List.splitOn_append_cons_self_of_not_mem notIn ..

theorem not_mem_of_mem_splitOn {separator : α} {text part : List α}
    (isPart : part ∈ text.splitOn separator) : separator ∉ part := by
  induction length : text.length using Nat.strongRecOn generalizing text with
  | _ left ih =>
      cases cut : splitOnce separator text with
      | none =>
          have notIn := splitOnce_eq_none_iff.mp cut
          rw [List.splitOn_eq_singleton notIn, List.mem_singleton] at isPart
          rw [isPart]
          exact notIn
      | some parts =>
          obtain ⟨before, after⟩ := parts
          rw [splitOn_of_splitOnce cut] at isPart
          obtain ⟨rfl, notIn⟩ := splitOnce_eq_some_iff.mp cut
          rcases List.mem_cons.mp isPart with rfl | later
          · exact notIn
          · refine ih after.length ?_ later rfl
            rw [← length, List.length_append, List.length_cons]
            omega

theorem splitOn_singleton_iff {separator : α} {text part : List α} :
    text.splitOn separator = [part] ↔ text = part ∧ separator ∉ text := by
  refine ⟨?_, ?_⟩
  · intro single
    have whole : [separator].intercalate (text.splitOn separator) = text :=
      List.intercalate_splitOn separator
    rw [single] at whole
    refine ⟨by simpa using whole.symm, ?_⟩
    cases cut : splitOnce separator text with
    | none => exact splitOnce_eq_none_iff.mp cut
    | some parts =>
        rw [splitOn_of_splitOnce cut] at single
        exact (List.splitOn_ne_nil _ _ (List.cons.inj single).2).elim
  · rintro ⟨rfl, notIn⟩
    exact List.splitOn_eq_singleton notIn

/-! ## Parts between separators -/

section Parts

variable {β : Type}

theorem prefix_append_cons_of_not_mem {separator : β} {pattern before after : List β}
    (unbroken : separator ∉ pattern) (starts : pattern <+: before ++ separator :: after) :
    pattern <+: before := by
  induction before generalizing pattern with
  | nil =>
      cases pattern with
      | nil => exact List.prefix_rfl
      | cons head rest =>
          obtain ⟨same, _⟩ := List.cons_prefix_cons.mp starts
          exact absurd (List.mem_cons.mpr (Or.inl same.symm)) unbroken
  | cons first before ih =>
      cases pattern with
      | nil => exact List.nil_prefix
      | cons head rest =>
          obtain ⟨same, starts⟩ := List.cons_prefix_cons.mp starts
          have others := ih (fun isIn => unbroken (List.mem_cons_of_mem head isIn)) starts
          exact List.cons_prefix_cons.mpr ⟨same, others⟩

theorem infix_append_cons_of_not_mem {separator : β} {pattern before after : List β}
    (unbroken : separator ∉ pattern) (within : pattern <:+: before ++ separator :: after) :
    pattern <:+: before ∨ pattern <:+: after := by
  induction before with
  | nil =>
      rcases List.infix_cons_iff.mp within with starts | later
      · have empty : pattern <+: [] := prefix_append_cons_of_not_mem unbroken starts
        exact Or.inl empty.isInfix
      · exact Or.inr later
  | cons first before ih =>
      rcases List.infix_cons_iff.mp within with starts | later
      · have whole : pattern <+: first :: before := prefix_append_cons_of_not_mem unbroken starts
        exact Or.inl whole.isInfix
      · exact (ih later).imp_left fun found => found.trans (List.suffix_cons first before).isInfix

/-- Such a text is found in one of the parts. -/
theorem infix_flatMap_append {separator : β} {pattern : List β} {parts : List (List β)}
    (nonempty : pattern ≠ []) (unbroken : separator ∉ pattern)
    (within : pattern <:+: parts.flatMap (· ++ [separator])) :
    ∃ part ∈ parts, pattern <:+: part := by
  induction parts with
  | nil => exact absurd (List.infix_nil.mp within) nonempty
  | cons part parts ih =>
      rw [List.flatMap_cons, List.append_assoc, List.singleton_append] at within
      rcases infix_append_cons_of_not_mem unbroken within with here | later
      · exact ⟨part, List.mem_cons_self, here⟩
      · obtain ⟨other, isIn, found⟩ := ih later
        exact ⟨other, List.mem_cons_of_mem part isIn, found⟩

end Parts

/-! ## Trimming -/

section Trimming

variable {β : Type} (isSpace : β → Bool)

def trim (text : List β) : List β := (text.dropWhile isSpace).rdropWhile isSpace

variable {isSpace}

theorem trim_eq_self {text : List β} (solid : ∀ c ∈ text, isSpace c = false) :
    trim isSpace text = text := by
  have front : text.dropWhile isSpace = text := by
    cases text with
    | nil => rfl
    | cons head rest => simp [List.dropWhile, solid head List.mem_cons_self]
  rw [trim, front, List.rdropWhile_eq_self_iff]
  intro nonempty
  simp [solid _ (List.getLast_mem nonempty)]

theorem mem_dropWhile_or (isSpace : β → Bool) {text : List β} {c : β} (isIn : c ∈ text) :
    c ∈ text.dropWhile isSpace ∨ isSpace c = true := by
  have whole : text.takeWhile isSpace ++ text.dropWhile isSpace = text :=
    List.takeWhile_append_dropWhile
  rw [← whole, List.mem_append] at isIn
  exact isIn.symm.imp_right List.mem_takeWhile_imp

/-- Only spaces are lost. -/
theorem mem_trim_or {text : List β} {c : β} (isIn : c ∈ text) :
    c ∈ trim isSpace text ∨ isSpace c = true := by
  rcases mem_dropWhile_or isSpace isIn with kept | space
  · rw [trim, List.rdropWhile, List.mem_reverse]
    exact mem_dropWhile_or isSpace (List.mem_reverse.mpr kept)
  · exact Or.inr space

end Trimming

/-! ## Lines -/

section Lines

def stripReturn (line : List Char) : List Char :=
  if line.getLast? = some '\r' then line.dropLast else line

/-- `str::lines`.  A last part without a newline keeps its carriage return, and is
no line if it is empty. -/
def lines (text : List Char) : List (List Char) :=
  let parts := text.splitOn '\n'
  parts.dropLast.map stripReturn ++ (parts.getLast?.filter (· ≠ [])).toList

theorem stripReturn_eq_self_iff {line : List Char} :
    stripReturn line = line ↔ line.getLast? ≠ some '\r' := by
  unfold stripReturn
  split
  · rename_i ends
    refine iff_of_false ?_ (by simp [ends])
    intro same
    have shorter := congrArg List.length same
    have positive : 0 < line.length := by
      cases line with
      | nil => contradiction
      | cons head rest => simp
    rw [List.length_dropLast] at shorter
    omega
  · rename_i other
    exact iff_of_true rfl other

theorem newline_not_mem_of_mem_lines {text line : List Char} (isLine : line ∈ lines text) :
    '\n' ∉ line := by
  rcases List.mem_append.mp isLine with ended | unended
  · obtain ⟨part, isPart, rfl⟩ := List.mem_map.mp ended
    have notIn : '\n' ∉ part := not_mem_of_mem_splitOn ((List.dropLast_sublist _).subset isPart)
    intro isIn
    unfold stripReturn at isIn
    split at isIn
    · exact notIn ((List.dropLast_sublist part).subset isIn)
    · exact notIn isIn
  · have isLast := (Option.filter_eq_some_iff.mp (Option.mem_toList.mp unended)).1
    exact not_mem_of_mem_splitOn (List.mem_of_getLast? isLast)

/-- Joined by newlines, nonempty texts are the lines of the whole exactly if none is
broken and only the last may end with a carriage return. -/
theorem lines_intercalate_iff {parts : List (List Char)} (nonempty : ∀ part ∈ parts, part ≠ []) :
    lines (['\n'].intercalate parts) = parts ↔
      (∀ part ∈ parts, '\n' ∉ part) ∧ ∀ part ∈ parts.dropLast, part.getLast? ≠ some '\r' := by
  have unbroken_lines : (∀ part ∈ parts, '\n' ∉ part) →
      lines (['\n'].intercalate parts) = parts.dropLast.map stripReturn ++ parts.getLast?.toList := by
    intro unbroken
    cases parts with
    | nil => rfl
    | cons first others =>
        have solid := nonempty _ (List.getLast_mem (List.cons_ne_nil first others))
        rw [lines, List.splitOn_intercalate _ unbroken (List.cons_ne_nil first others),
          List.getLast?_eq_some_getLast (List.cons_ne_nil first others)]
        simp [solid]
  have whole : parts.dropLast ++ parts.getLast?.toList = parts := by
    cases parts with
    | nil => rfl
    | cons first others =>
        rw [List.getLast?_eq_some_getLast (List.cons_ne_nil first others)]
        exact List.dropLast_append_getLast _
  have kept : parts.dropLast.map stripReturn = parts.dropLast ↔
      ∀ part ∈ parts.dropLast, part.getLast? ≠ some '\r' := by
    have pointwise := @List.map_inj_left _ _ parts.dropLast stripReturn id
    rw [List.map_id] at pointwise
    exact pointwise.trans (forall₂_congr fun part _ => stripReturn_eq_self_iff)
  constructor
  · intro same
    have unbroken : ∀ part ∈ parts, '\n' ∉ part := by
      intro part isPart
      exact newline_not_mem_of_mem_lines (same.symm ▸ isPart)
    rw [unbroken_lines unbroken] at same
    exact ⟨unbroken, kept.mp (List.append_cancel_right (same.trans whole.symm))⟩
  · intro plain
    obtain ⟨unbroken, ends⟩ := plain
    rw [unbroken_lines unbroken, kept.mpr ends, whole]

end Lines

end RealityHydra.Lib.Text
