import EventQuery.Log.Event
import EventQuery.Proofs.Source.Place

set_option autoImplicit false

namespace EventQuery

theorem utf8ByteSize_ofList (text : List Char) :
    (String.ofList text).utf8ByteSize = byteCount text := by
  induction text with
  | nil => rfl
  | cons c rest ih =>
    rw [String.ofList_cons, String.utf8ByteSize_append, String.utf8ByteSize_singleton, ih,
      byteCount_cons]

namespace Event

theorem fitting_isPrefix (limit : Nat) (text : List Char) : fitting limit text <+: text := by
  induction text generalizing limit with
  | nil => exact List.prefix_refl []
  | cons c rest ih =>
    unfold fitting
    split
    · exact (List.prefix_cons_inj c).mpr (ih _)
    · exact List.nil_prefix

theorem byteCount_fitting_le (limit : Nat) (text : List Char) :
    byteCount (fitting limit text) ≤ limit := by
  induction text generalizing limit with
  | nil => exact Nat.zero_le limit
  | cons c rest ih =>
    unfold fitting
    split
    · have others := ih (limit - c.utf8Size)
      rw [byteCount_cons]
      omega
    · exact Nat.zero_le limit

/-- Every part from the start that fits is in the part that is kept. -/
theorem isPrefix_fitting {limit : Nat} {text part : List Char} (front : part <+: text)
    (fits : byteCount part ≤ limit) : part <+: fitting limit text := by
  induction text generalizing limit part with
  | nil => exact front
  | cons c rest ih =>
    cases part with
    | nil => exact List.nil_prefix
    | cons d others =>
      obtain ⟨rfl, more⟩ := List.cons_prefix_cons.mp front
      rw [byteCount_cons] at fits
      unfold fitting
      rw [if_pos (by omega)]
      exact (List.prefix_cons_inj d).mpr (ih more (by omega))

/-- A character has four bytes at most, so that one that does not fit leaves three of them free. -/
theorem le_byteCount_fitting (limit : Nat) (text : List Char) (long : limit < byteCount text) :
    limit ≤ byteCount (fitting limit text) + 3 := by
  induction text generalizing limit with
  | nil => exact absurd long (Nat.not_lt_zero limit)
  | cons c rest ih =>
    rw [byteCount_cons] at long
    unfold fitting
    split
    · have others := ih (limit - c.utf8Size) (by omega)
      rw [byteCount_cons]
      omega
    · have size := c.utf8Size_le_four
      omega

/-- The longest part from the start of a text that has so many bytes at most. -/
structure LongestWithin (limit : Nat) (kept text : String) : Prop where
  front : ∃ rest, text = kept ++ rest
  fits : kept.utf8ByteSize ≤ limit
  longest : ∀ part rest, text = part ++ rest → part.utf8ByteSize ≤ limit →
    part.utf8ByteSize ≤ kept.utf8ByteSize

theorem longestWithin_fitting (limit : Nat) (text : String) :
    LongestWithin limit (String.ofList (fitting limit text.toList)) text := by
  refine ⟨?front, ?fits, ?longest⟩
  case front =>
    obtain ⟨rest, whole⟩ := fitting_isPrefix limit text.toList
    exact ⟨String.ofList rest, by rw [← String.ofList_append, whole, String.ofList_toList]⟩
  case fits =>
    rw [utf8ByteSize_ofList]
    exact byteCount_fitting_le limit text.toList
  case longest =>
    rintro part rest rfl small
    have size : byteCount part.toList = part.utf8ByteSize := by
      rw [← utf8ByteSize_ofList, String.ofList_toList]
    have front : part.toList <+: (part ++ rest).toList := ⟨rest.toList, String.toList_append.symm⟩
    obtain ⟨more, kept⟩ := isPrefix_fitting front (size ▸ small)
    rw [utf8ByteSize_ofList, ← kept, byteCount_append, size]
    exact Nat.le_add_right _ _

/-- Whether a character begins at the byte, or the text ends before it. -/
def isBoundary (text : String) (byte : Nat) : Bool := String.Pos.Raw.isValid text ⟨byte⟩

/-- The last boundary up to a byte. The walk back fails if it would leave the text. -/
def boundaryUpTo? (text : String) : Nat → Option Nat
  | 0 => if isBoundary text 0 then some 0 else none
  | byte + 1 => if isBoundary text (byte + 1) then some (byte + 1) else boundaryUpTo? text byte

/-- The text up to a byte. It fails where the bytes end within a character. -/
def cutBefore? (text : String) (byte : Nat) : Option String :=
  String.fromUTF8? (text.toByteArray.extract 0 byte)

/-- Cuts a message that is too long, with a search for the place from the limit back. -/
def truncate? (message : String) : Option String :=
  if message.utf8ByteSize ≤ maxMessageBytes then some message
  else do
    let stop ← boundaryUpTo? message maxMessageBytes
    let kept ← cutBefore? message stop
    return kept ++ "..."

theorem isBoundary_iff (text : String) (byte : Nat) : isBoundary text byte = true ↔
    ∃ front rest, text = front ++ rest ∧ front.utf8ByteSize = byte := by
  rw [isBoundary, String.Pos.Raw.isValid_eq_true_iff, String.Pos.Raw.isValid_iff_exists_append]
  constructor
  · rintro ⟨front, rest, whole, place⟩
    exact ⟨front, rest, whole, (congrArg String.Pos.Raw.byteIdx place).symm⟩
  · rintro ⟨front, rest, whole, rfl⟩
    exact ⟨front, rest, whole, rfl⟩

variable {limit : Nat} {text kept : String}

/-- By induction on the limit: a byte that is no boundary ends no part. -/
theorem LongestWithin.boundaryUpTo?_eq (longest : LongestWithin limit kept text) :
    boundaryUpTo? text limit = some kept.utf8ByteSize := by
  have ends : isBoundary text kept.utf8ByteSize = true := by
    obtain ⟨rest, whole⟩ := longest.front
    exact (isBoundary_iff text _).mpr ⟨kept, rest, whole, rfl⟩
  induction limit with
  | zero =>
    have none : kept.utf8ByteSize = 0 := Nat.le_zero.mp longest.fits
    rw [none] at ends ⊢
    rw [boundaryUpTo?, if_pos ends]
  | succ limit ih =>
    unfold boundaryUpTo?
    split
    · rename_i boundary
      obtain ⟨front, rest, whole, size⟩ := (isBoundary_iff text _).mp boundary
      have least := longest.longest front rest whole (Nat.le_of_eq size)
      rw [size] at least
      rw [Nat.le_antisymm least longest.fits]
    · rename_i within
      have shorter : kept.utf8ByteSize ≠ limit + 1 := fun same => within (same ▸ ends)
      have fits := longest.fits
      exact ih ⟨longest.front, by omega, fun part rest whole small =>
        longest.longest part rest whole (Nat.le_succ_of_le small)⟩

theorem cutBefore?_append (front rest : String) :
    cutBefore? (front ++ rest) front.utf8ByteSize = some front := by
  have bytes : (front ++ rest).toByteArray.extract 0 front.utf8ByteSize = front.toByteArray := by
    rw [String.toByteArray_append]
    exact ByteArray.extract_append_eq_left rfl
  rw [cutBefore?, bytes, String.fromUTF8?, dif_pos front.isValidUTF8]
  rfl

theorem truncate?_eq (message : String) : truncate? message = some (truncate message) := by
  unfold truncate? truncate
  split
  · rfl
  · have longest := longestWithin_fitting maxMessageBytes message
    generalize String.ofList (fitting maxMessageBytes message.toList) = kept at longest ⊢
    obtain ⟨rest, rfl⟩ := longest.front
    rw [longest.boundaryUpTo?_eq]
    dsimp only [bind, Option.bind]
    rw [cutBefore?_append]
    rfl

/-- The walk back through the bytes of a message ends at a boundary, and the message is cut there.
Up to 4096 bytes a message stays as it is. Of a longer one the longest part of whole characters that
has 4096 bytes at most is kept, and leaves three of these free at most. -/
theorem truncate_longest (message : String) :
    truncate? message = some (truncate message) ∧
    if message.utf8ByteSize ≤ 4096 then truncate message = message
    else ∃ kept, LongestWithin 4096 kept message ∧ 4093 ≤ kept.utf8ByteSize ∧
      truncate message = kept ++ "..." := by
  refine ⟨truncate?_eq message, ?_⟩
  split
  · rename_i short
    exact if_pos short
  · rename_i long
    refine ⟨_, longestWithin_fitting 4096 message, ?_, if_neg long⟩
    have free := le_byteCount_fitting 4096 message.toList <| by
      rw [← utf8ByteSize_ofList, String.ofList_toList]
      exact Nat.not_le.mp long
    rw [utf8ByteSize_ofList]
    omega

end Event

end EventQuery
