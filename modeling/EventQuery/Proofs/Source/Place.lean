import Mathlib.Algebra.Group.Nat.Defs
import EventQuery.Source.Text

set_option autoImplicit false

namespace EventQuery

@[simp] theorem byteCount_append (front back : List Char) :
    byteCount (front ++ back) = byteCount front + byteCount back := by
  induction front with
  | nil => rw [List.nil_append, byteCount_nil, Nat.zero_add]
  | cons c rest ih => rw [List.cons_append, byteCount_cons, byteCount_cons, ih, Nat.add_assoc]

theorem byteCount_pos {text : List Char} (present : text ≠ []) : 0 < byteCount text := by
  cases text with
  | nil => exact absurd rfl present
  | cons c rest =>
    have size := c.utf8Size_pos
    rw [byteCount_cons]
    omega

theorem byteCount_le (text : List Char) : byteCount text ≤ 4 * text.length := by
  induction text with
  | nil => exact Nat.le_refl 0
  | cons c rest ih =>
    have size := c.utf8Size_le_four
    rw [byteCount_cons, List.length_cons]
    omega

theorem byteCount_eq_length {text : List Char} (single : ∀ c ∈ text, c.utf8Size = 1) :
    byteCount text = text.length := by
  induction text with
  | nil => rfl
  | cons c rest ih =>
    rw [List.forall_mem_cons] at single
    rw [byteCount_cons, single.1, ih single.2, List.length_cons, Nat.add_comm]

namespace Position

theorem offset_advanceOver (p : Position) (text : List Char) :
    (p.advanceOver text).offset = p.offset + byteCount text := by
  induction text generalizing p with
  | nil => rfl
  | cons c rest ih =>
    rw [advanceOver_cons, ih, byteCount_cons, advance]
    split
    · rename_i feed
      have size : c.utf8Size = 1 := by rw [feed]; rfl
      show p.offset + 1 + byteCount rest = _
      omega
    · show p.offset + c.utf8Size + byteCount rest = _
      omega

theorem line_advanceOver (p : Position) (text : List Char) :
    (p.advanceOver text).line = p.line + .ofNat (text.count '\n') := by
  induction text generalizing p with
  | nil => exact (UInt32.add_zero p.line).symm
  | cons c rest ih =>
    rw [advanceOver_cons, ih, List.count_cons, advance]
    by_cases feed : c = '\n'
    · rw [if_pos feed, if_pos (by simp [feed]), UInt32.ofNat_add, UInt32.add_comm (.ofNat _),
        ← UInt32.add_assoc]
      rfl
    · rw [if_neg feed, if_neg (by simp [feed])]
      rfl

/-- By induction from the end, since only the last line feed counts. -/
theorem column_advanceOver_reverse (backwards : List Char) :
    (start.advanceOver backwards.reverse).column =
      .ofNat ((backwards.takeWhile (· ≠ '\n')).length + 1) := by
  induction backwards with
  | nil => rfl
  | cons c rest ih =>
    rw [List.reverse_cons, advanceOver_append, advanceOver_cons, advanceOver_nil, advance]
    by_cases feed : c = '\n'
    · rw [if_pos feed, List.takeWhile_cons_of_neg (by simp [feed])]
      rfl
    · rw [if_neg feed, List.takeWhile_cons_of_pos (by simp [feed]), List.length_cons,
        UInt32.ofNat_add, ← ih]
      rfl

/-- `p` stands behind `front`: the offset counts its bytes, the line its line feeds, and the column
the characters behind the last of them, the latter two as 32-bit numbers. -/
structure Behind (front : List Char) (p : Position) : Prop where
  offset : p.offset = byteCount front
  line : p.line = .ofNat (front.count '\n' + 1)
  column : p.column = .ofNat ((front.reverse.takeWhile (· ≠ '\n')).length + 1)

theorem behind_advanceOver (front : List Char) : Behind front (start.advanceOver front) where
  offset := by
    rw [offset_advanceOver]
    exact Nat.zero_add _
  line := by
    rw [line_advanceOver, UInt32.ofNat_add, UInt32.add_comm]
    rfl
  column := by
    have backwards := column_advanceOver_reverse front.reverse
    rwa [List.reverse_reverse] at backwards

/-- The line and the column of `p` are those of a place behind `front`, however large they are. -/
structure Counts (front : List Char) (p : Position) : Prop where
  offset : p.offset = byteCount front
  line : p.line.toNat = front.count '\n' + 1
  column : p.column.toNat = (front.reverse.takeWhile (· ≠ '\n')).length + 1

/-- Lines and columns are at most one greater than the number of characters, so they are 32-bit
numbers in a short text. -/
theorem Behind.counts {front : List Char} {p : Position} (behind : Behind front p)
    (short : front.length < 2 ^ 32 - 1) : Counts front p := by
  have lines : front.count '\n' ≤ front.length := List.count_le_length
  have columns : (front.reverse.takeWhile (· ≠ '\n')).length ≤ front.reverse.length :=
    (List.takeWhile_sublist _).length_le
  rw [List.length_reverse] at columns
  refine ⟨behind.offset, ?_, ?_⟩
  · rw [behind.line, UInt32.toNat_ofNat', Nat.mod_eq_of_lt (by omega)]
  · rw [behind.column, UInt32.toNat_ofNat', Nat.mod_eq_of_lt (by omega)]

end Position

theorem cutFrom_append (middle back taken : List Char) :
    cutFrom taken (middle ++ back) (byteCount middle) = some (taken.reverse ++ middle, back) := by
  induction middle generalizing taken with
  | nil =>
    rw [byteCount_nil, List.nil_append, List.append_nil]
    cases back <;> rfl
  | cons c rest ih =>
    have size := c.utf8Size_pos
    obtain ⟨n, total⟩ : ∃ n, byteCount (c :: rest) = n + 1 :=
      ⟨byteCount (c :: rest) - 1, by rw [byteCount_cons]; omega⟩
    have left : n + 1 - c.utf8Size = byteCount rest := by
      rw [← total, byteCount_cons]
      omega
    have fits : c.utf8Size ≤ n + 1 := by
      rw [← total, byteCount_cons]
      omega
    rw [total, List.cons_append, cutFrom, if_pos fits, left, ih, List.reverse_cons,
      List.append_assoc]
    rfl

theorem cutAt_append (front back : List Char) :
    cutAt (byteCount front) (front ++ back) = some (front, back) := cutFrom_append front back []

theorem sliceBytes_append (front middle back : List Char) :
    sliceBytes (front ++ (middle ++ back)) (byteCount front) (byteCount (front ++ middle)) =
      some middle := by
  have order : byteCount front ≤ byteCount (front ++ middle) := by
    rw [byteCount_append]
    omega
  have size : byteCount (front ++ middle) - byteCount front = byteCount middle := by
    rw [byteCount_append]
    omega
  rw [sliceBytes, if_pos order, cutAt_append, Option.bind_some, size, cutAt_append]
  rfl

end EventQuery
