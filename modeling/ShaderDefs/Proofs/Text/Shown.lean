import ShaderDefs.Diagnostic
import ShaderDefs.Proofs.Text.Lines

/-! What is shown of a line. A line feed ends every line but the last, and a carriage return in front of
the line feed belongs to the ending too. Everything else on the line is shown. -/

set_option autoImplicit false

namespace ShaderDefs.Text

inductive WithoutEnding (fed : Prop) : List Char → List Char → Prop where
  | lineFeed {line : List Char} (other : fed → line.getLast? ≠ some '\r') :
      WithoutEnding fed line line
  | returnAndLineFeed (line : List Char) (follows : fed) : WithoutEnding fed (line ++ ['\r']) line

theorem withoutEnding_dropReturn {fed : Prop} (follows : fed) (line : List Char) :
    WithoutEnding fed line (dropReturn line) := by
  unfold dropReturn
  split
  next ends =>
    obtain ⟨body, rfl⟩ := List.getLast?_eq_some_iff.1 ends
    rw [List.dropLast_concat]
    exact .returnAndLineFeed body follows
  next other => exact .lineFeed fun _ => other

theorem exists_shown {text : String} {index : Nat} {line : List Char}
    (found : (lines text)[index]? = some line) :
    ∃ shown, (shownLines text)[index]? = some shown ∧
      WithoutEnding (index + 1 < (lines text).length) line shown.toList := by
  have low := (List.getElem?_eq_some_iff.1 found).1
  have last : (lines text).getLast? = _ := List.getLast?_eq_getElem?
  unfold shownLines
  generalize lines text = all at found low last ⊢
  dsimp only
  have length : (all.dropLast.map dropReturn).length = all.length - 1 := by
    rw [List.length_map, List.length_dropLast]
  rw [List.getElem?_map]
  by_cases more : index + 1 < all.length
  · rw [List.getElem?_append_left (by omega), List.getElem?_map, List.getElem?_dropLast,
      if_pos (by omega), found]
    refine ⟨_, rfl, ?_⟩
    rw [String.toList_ofList]
    exact withoutEnding_dropReturn more line
  · have atLast : index = all.length - 1 := by omega
    rw [← atLast, found] at last
    rw [List.getElem?_append_right (by omega), length, atLast, Nat.sub_self, last]
    refine ⟨_, rfl, ?_⟩
    rw [String.toList_ofList]
    exact .lineFeed fun follows => absurd follows (by omega)

theorem WithoutEnding.subset {fed : Prop} {line shown : List Char}
    (without : WithoutEnding fed line shown) : shown ⊆ line := by
  cases without with
  | lineFeed => exact List.Subset.refl _
  | returnAndLineFeed => exact List.subset_append_left _ _

theorem WithoutEnding.length {fed : Prop} {line shown : List Char}
    (without : WithoutEnding fed line shown) :
    shown.length ≤ line.length ∧ line.length ≤ shown.length + 1 ∧
      (line.getLast? ≠ some '\r' → line.length = shown.length) := by
  cases without with
  | lineFeed => simp
  | returnAndLineFeed => simp

theorem WithoutEnding.prefix_drop {fed : Prop} {line shown part : List Char}
    (without : WithoutEnding fed line shown) {offset : Nat} (begins : part <+: line.drop offset)
    (noReturn : '\r' ∉ part) : part <+: shown.drop offset := by
  cases without with
  | lineFeed => exact begins
  | returnAndLineFeed =>
    rw [List.drop_append] at begins
    cases ending : offset - shown.length with
    | zero =>
      rw [ending, List.drop_zero, List.prefix_concat_iff] at begins
      rcases begins with whole | inside
      · exact absurd (by rw [whole]; simp) noReturn
      · exact inside
    | succ further =>
      rw [ending, List.drop_succ_cons, List.drop_nil, List.append_nil] at begins
      exact begins

end ShaderDefs.Text
