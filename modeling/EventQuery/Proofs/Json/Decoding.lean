import EventQuery.Json.Decode
import EventQuery.Proofs.Decimal.Digits
import EventQuery.Proofs.Json.Printing

set_option autoImplicit false

namespace EventQuery.Json

theorem numberText_toDigits (n : Nat) : NumberText (Nat.toDigits 10 n) := by
  have alone : ∀ more, Nat.toDigits 10 n = '0' :: more → more = [] := by
    intro more same
    by_cases zero : n = 0
    · subst zero
      exact (List.cons.inj same).2.symm
    · have first := Decimal.head_toDigits (Nat.pos_of_ne_zero zero) '0'
      rw [same] at first
      exact absurd rfl (first rfl)
  have number := NumberText.mk (.inl rfl) (Decimal.digits_toDigits n) alone .absent .absent
  simpa only [List.nil_append, List.append_nil] using number

theorem readNat?_toDigits {limit n : Nat} (small : n ≤ limit) :
    readNat? limit (Nat.toDigits 10 n) = some n := by
  have written := Decimal.digits_toDigits n
  have wholly : (Nat.toDigits 10 n).all isDigit = true := List.all_eq_true.mpr written.isDigit
  simp [readNat?, written.present, wholly, Decimal.natOfDigits_toDigits, small]

theorem mapM_eq_map {α β : Type} {read : α → Option β} {value : α → β} {entries : List α}
    (each : ∀ a ∈ entries, read a = some (value a)) :
    entries.mapM read = some (entries.map value) := by
  induction entries with
  | nil => rfl
  | cons a rest ih =>
    rw [List.mapM_cons, each a List.mem_cons_self,
      ih fun b later => each b (List.mem_cons_of_mem _ later)]
    rfl

section Records

variable {entries : List (String × Json)} {key : String → List Char}

theorem keyed?_of_keys (named : ∀ entry ∈ entries, unescape? (key entry.1) = some entry.1.toList) :
    keyed? (entries.map fun entry => (key entry.1, entry.2)) =
      some (entries.map fun entry => (entry.1.toList, entry.2)) := by
  induction entries with
  | nil => rfl
  | cons entry rest ih =>
    rw [List.forall_mem_cons] at named
    rw [List.map_cons, keyed?, named.1, ih named.2, List.map_cons]

/-- Where no key stands twice, the entry of a key is found and no other. -/
theorem entryOf_of_mem (distinct : (entries.map Prod.fst).Nodup)
    {entry : String × Json} (member : entry ∈ entries) :
    entryOf (entries.map fun entry => (entry.1.toList, entry.2)) entry.1 = some (some entry.2) := by
  have only : (entries.map fun entry => (entry.1.toList, entry.2)).filter
      (·.1 = entry.1.toList) = [(entry.1.toList, entry.2)] := by
    induction entries with
    | nil => cases member
    | cons other rest ih =>
      rw [List.map_cons, List.nodup_cons] at distinct
      rw [List.map_cons]
      rcases List.mem_cons.mp member with rfl | later
      · have others : (rest.map fun entry => (entry.1.toList, entry.2)).filter
            (·.1 = entry.1.toList) = [] := by
          rw [List.filter_eq_nil_iff]
          intro keyed there
          obtain ⟨twin, behind, rfl⟩ := List.mem_map.mp there
          have apart : twin.1 ≠ entry.1 := by
            intro same
            exact distinct.1 (same ▸ List.mem_map_of_mem behind)
          simpa [String.toList_inj] using apart
        rw [List.filter_cons_of_pos (by simp), others]
      · have apart : other.1 ≠ entry.1 := by
          intro same
          exact distinct.1 (same ▸ List.mem_map_of_mem later)
        rw [List.filter_cons_of_neg (by simpa [String.toList_inj] using apart), ih distinct.2 later]
  rw [entryOf, only]

theorem fields?_of_keys (distinct : (entries.map Prod.fst).Nodup)
    (named : ∀ entry ∈ entries, unescape? (key entry.1) = some entry.1.toList) :
    fields? (entries.map Prod.fst) (.object (entries.map fun entry => (key entry.1, entry.2))) =
      some (entries.map fun entry => some entry.2) := by
  rw [fields?, keyed?_of_keys named, Option.bind_some, List.mapM_map]
  exact mapM_eq_map fun _ member => entryOf_of_mem distinct member

end Records

end EventQuery.Json
