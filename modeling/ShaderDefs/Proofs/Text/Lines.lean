import Mathlib.Data.List.TakeWhile
import ShaderDefs.Token.Scan

/-! Laws of lines. A text that ends in a line feed can be read up to there on its own: the lines of a
longer text are its lines and then those of what follows. -/

set_option autoImplicit false

namespace ShaderDefs.Text

/-- The text stops where a line begins. -/
def IsClosed (text : String) : Prop := text = "" ∨ text.toList.getLast? = some '\n'

theorem notMem_and_length_le_of_mem_splitOn {characters line : List Char}
    (member : line ∈ characters.splitOn '\n') : '\n' ∉ line ∧ line.length ≤ characters.length := by
  induction characters generalizing line with
  | nil =>
    rw [List.splitOn_nil, List.mem_singleton] at member
    simp [member]
  | cons first rest ih =>
    rw [List.splitOn_cons_eq_if_modifyHead] at member
    obtain ⟨head, tail, shape⟩ := List.exists_cons_of_ne_nil (List.splitOn_ne_nil '\n' rest)
    rw [shape] at member ih
    have more : ∀ other ∈ head :: tail, '\n' ∉ other ∧ other.length ≤ (first :: rest).length :=
      fun other inside => ⟨(ih inside).1, Nat.le_succ_of_le (ih inside).2⟩
    split at member
    next =>
      rcases List.mem_cons.1 member with rfl | member
      · simp
      · exact more line member
    next feed =>
      rcases List.mem_cons.1 member with rfl | member
      · -- The first line grows by a character that is no line feed.
        obtain ⟨noFeed, short⟩ := ih List.mem_cons_self
        have other : '\n' ≠ first := fun same => feed (by simp [← same])
        exact ⟨List.not_mem_cons_of_ne_of_not_mem other noFeed, Nat.succ_le_succ short⟩
      · exact more line (List.mem_cons_of_mem _ member)

theorem notMem_of_mem_lines {text : String} {line : List Char} (member : line ∈ lines text) :
    '\n' ∉ line :=
  (notMem_and_length_le_of_mem_splitOn member).1

theorem length_le_of_mem_lines {text : String} {line : List Char} (member : line ∈ lines text) :
    line.length ≤ text.length :=
  (notMem_and_length_le_of_mem_splitOn member).2

theorem length_lines (text : String) : (lines text).length = text.toList.count '\n' + 1 := by
  unfold lines
  induction text.toList with
  | nil => rfl
  | cons first rest ih =>
    rw [List.splitOn_cons_eq_if_modifyHead, List.count_cons]
    split
    next => rw [List.length_cons, ih]
    next => rw [List.length_modifyHead, ih, Nat.add_zero]

theorem length_lines_le (text : String) : (lines text).length ≤ text.length + 1 := by
  rw [length_lines]
  exact Nat.succ_le_succ List.count_le_length

theorem getLast?_lines (text : String) :
    (lines text).getLast? = some (text.toList.reverse.takeWhile (· ≠ '\n')).reverse := by
  have whole := List.takeWhile_append_dropWhile (p := (· ≠ '\n')) (l := text.toList.reverse)
  have noFeed : '\n' ∉ (text.toList.reverse.takeWhile (· ≠ '\n')).reverse := by
    rw [List.mem_reverse]
    exact fun feed => absurd (List.mem_takeWhile_imp feed) (by decide)
  have feeds := List.head?_dropWhile_not (· ≠ '\n') text.toList.reverse
  generalize text.toList.reverse.takeWhile (· ≠ '\n') = last at whole noFeed ⊢
  generalize text.toList.reverse.dropWhile (· ≠ '\n') = before at whole feeds
  rw [← List.reverse_inj, List.reverse_reverse, List.reverse_append] at whole
  unfold lines
  rw [← whole]
  cases before with
  | nil => rw [List.reverse_nil, List.nil_append, List.splitOn_eq_singleton noFeed]; rfl
  | cons feed before =>
    obtain rfl : feed = '\n' := by simpa using feeds
    rw [List.reverse_cons, List.append_assoc, List.singleton_append, List.splitOn_append_cons_self,
      List.splitOn_eq_singleton noFeed, List.getLast?_concat]

theorem number_lt_size_of_mem {source : String} (short : source.length < UInt32.size - 1)
    {numbered : List Char × Nat} (member : numbered ∈ (lines source).zipIdx 1) :
    numbered.2 < UInt32.size := by
  have low := (List.mem_zipIdx member).2.1
  have few := length_lines_le source
  omega

theorem eq_of_ofNat_eq {source : String} (short : source.length < UInt32.size - 1)
    {first second : List Char × Nat} (inFirst : first ∈ (lines source).zipIdx 1)
    (inSecond : second ∈ (lines source).zipIdx 1)
    (same : UInt32.ofNat first.2 = .ofNat second.2) : first = second := by
  have numbers : first.2 = second.2 := by
    rw [← UInt32.toNat_ofNat_of_lt' (number_lt_size_of_mem short inFirst), same,
      UInt32.toNat_ofNat_of_lt' (number_lt_size_of_mem short inSecond)]
  have found := (List.mk_mem_zipIdx_iff_le_and_getElem?_sub.1 inFirst).2
  have other := (List.mk_mem_zipIdx_iff_le_and_getElem?_sub.1 inSecond).2
  rw [numbers, other] at found
  exact Prod.ext (Option.some.inj found).symm numbers

/-- The whole lines of a closed text stay when more text follows. -/
theorem exists_lines_append {first : String} (closed : IsClosed first) :
    ∃ whole, lines first = whole ++ [[]] ∧
      ∀ second, lines (first ++ second) = whole ++ lines second := by
  rcases closed with rfl | feed
  · exact ⟨[], rfl, fun second => by rw [String.empty_append, List.nil_append]⟩
  · obtain ⟨body, same⟩ := List.getLast?_eq_some_iff.1 feed
    refine ⟨body.splitOn '\n', ?_, fun second => ?_⟩
    · rw [lines, same, List.splitOn_append_cons_self, List.splitOn_nil]
    · rw [lines, String.toList_append, same, List.append_assoc, List.singleton_append,
        List.splitOn_append_cons_self, lines]

/-- Texts without line feeds, each closed by one, are lines, and an empty line follows them. -/
theorem lines_join {texts : List String} (each : ∀ text ∈ texts, '\n' ∉ text.toList) :
    lines (String.join (texts.map (· ++ "\n"))) = texts.map String.toList ++ [[]] := by
  induction texts with
  | nil => rfl
  | cons text texts ih =>
    obtain ⟨noFeed, others⟩ := List.forall_mem_cons.1 each
    have feed : "\n".toList = ['\n'] := rfl
    have more := ih others
    unfold lines at more ⊢
    rw [List.map_cons, String.join_cons, String.toList_append, String.toList_append, feed,
      List.append_assoc, List.singleton_append, List.splitOn_append_cons_self_of_not_mem noFeed, more]
    rfl

end ShaderDefs.Text
