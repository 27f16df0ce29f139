import EventQuery.Proofs.Lexeme.Pattern

/- Munching takes the longest lexeme. The optional parts of a number are taken when they are
there to be taken, and in every other lexeme the first character says how far it reaches. -/

set_option autoImplicit false

namespace EventQuery.Lexeme

section Runs

variable {keep : Char → Bool} {run rest : List Char}

/-- A run ends before the first character that is not of its class. -/
theorem takeRun_of_stop (taken : List Char) (inside : ∀ c ∈ run, keep c = true)
    (stop : ∀ c ∈ rest.head?, keep c = false) :
    takeRun keep taken (run ++ rest) = (taken ++ run, rest) := by
  rw [takeRun, List.takeWhile_append_of_pos inside, List.dropWhile_append_of_pos inside]
  cases rest with
  | nil => simp
  | cons c more =>
    have outside : keep c = false := stop c rfl
    simp [outside]

theorem length_le_takeRun (taken rest : List Char) (inside : ∀ c ∈ run, keep c = true) :
    taken.length + run.length ≤ (takeRun keep taken (run ++ rest)).1.length := by
  rw [takeRun, List.takeWhile_append_of_pos inside, List.length_append, List.length_append]
  omega

theorem exists_run (keep : Char → Bool) (taken rest : List Char) :
    ∃ run, (takeRun keep taken rest).1 = taken ++ run ∧ ∀ c ∈ run, keep c = true :=
  ⟨rest.takeWhile keep, rfl, fun _ => List.all_eq_true.mp List.all_takeWhile _⟩

end Runs

theorem Digits.beginsWithDigit {digits : List Char} (written : Digits digits) (back : List Char) :
    beginsWithDigit (digits ++ back) = true := by
  cases digits with
  | nil => exact absurd rfl written.present
  | cons d more => exact written.isDigit d (List.mem_cons_self ..)

theorem digits_of_run {c : Char} {run : List Char} (first : isDigit c = true)
    (inside : ∀ d ∈ run, isDigit d = true) : Digits (c :: run) where
  present := List.cons_ne_nil c run
  only := by
    intro d member
    rcases List.mem_cons.mp member with rfl | later
    · exact (isDigit_iff d).mp first
    · exact (isDigit_iff d).mp (inside d later)

/-- Where a digit follows, a run of digits is not empty. -/
theorem exists_digits {rest : List Char} (taken : List Char) (digit : beginsWithDigit rest = true) :
    ∃ digits, (takeRun isDigit taken rest).1 = taken ++ digits ∧ Digits digits := by
  cases rest with
  | nil => cases digit
  | cons d more =>
    have first : isDigit d = true := digit
    refine ⟨d :: more.takeWhile isDigit, ?_, digits_of_run first ?_⟩
    · rw [takeRun, List.takeWhile_cons, if_pos first]
    · exact fun _ => List.all_eq_true.mp List.all_takeWhile _

theorem exists_fraction (parts : List Char × List Char) :
    ∃ fraction, (takeFraction parts).1 = parts.1 ++ fraction ∧ Fraction fraction := by
  unfold takeFraction
  split
  · rename_i taken rest
    split
    · rename_i digit
      obtain ⟨digits, same, written⟩ := exists_digits (taken ++ ['.']) digit
      refine ⟨'.' :: digits, ?_, .point written⟩
      rw [same, List.append_assoc, List.singleton_append]
    · exact ⟨[], by simp, .absent⟩
  · exact ⟨[], by simp, .absent⟩

theorem sign_splitSign (rest : List Char) : Sign (splitSign rest).1 := by
  unfold splitSign
  split
  · exact .inr (.inl rfl)
  · exact .inr (.inr rfl)
  · exact .inl rfl

theorem exists_exponent (parts : List Char × List Char) :
    ∃ exponent, (takeExponent parts).1 = parts.1 ++ exponent ∧ Exponent exponent := by
  unfold takeExponent
  split
  · rename_i taken mark rest
    dsimp only
    split
    · rename_i power
      obtain ⟨digits, same, written⟩ :=
        exists_digits (taken ++ mark :: (splitSign rest).1) power.2
      refine ⟨mark :: ((splitSign rest).1 ++ digits), ?_, .power power.1 (sign_splitSign rest) written⟩
      rw [same, List.append_assoc, List.cons_append]
    · exact ⟨[], by simp, .absent⟩
  · exact ⟨[], by simp, .absent⟩

theorem length_le_takeFraction (parts : List Char × List Char) :
    parts.1.length ≤ (takeFraction parts).1.length := by
  obtain ⟨fraction, same, _⟩ := exists_fraction parts
  rw [same, List.length_append]
  omega

theorem length_le_takeExponent (parts : List Char × List Char) :
    parts.1.length ≤ (takeExponent parts).1.length := by
  obtain ⟨exponent, same, _⟩ := exists_exponent parts
  rw [same, List.length_append]
  omega

/-- A sign before digits is split off whole. -/
theorem splitSign_of_sign {sign digits : List Char} (signed : Sign sign) (written : Digits digits)
    (back : List Char) : splitSign (sign ++ (digits ++ back)) = (sign, digits ++ back) := by
  rcases signed with rfl | rfl | rfl
  · have digit := written.beginsWithDigit back
    rw [List.nil_append]
    unfold splitSign
    split
    · rename_i rest plus
      rw [plus] at digit
      exact absurd digit (by simp [Lexeme.beginsWithDigit, EventQuery.isDigit])
    · rename_i rest minus
      rw [minus] at digit
      exact absurd digit (by simp [Lexeme.beginsWithDigit, EventQuery.isDigit])
    · rfl
  · rfl
  · rfl

/-- An exponent that stands next is taken. -/
theorem length_le_of_exponent {exponent : List Char} (power : Exponent exponent)
    (taken back : List Char) :
    taken.length + exponent.length ≤ (takeExponent (taken, exponent ++ back)).1.length := by
  cases power with
  | absent => exact length_le_takeExponent (taken, back)
  | @power mark sign digits marked signed written =>
    have here : mark :: (sign ++ digits) ++ back = mark :: (sign ++ (digits ++ back)) := by
      rw [List.cons_append, List.append_assoc]
    rw [here, takeExponent, splitSign_of_sign signed written back]
    dsimp only
    rw [if_pos ⟨marked, written.beginsWithDigit back⟩]
    have whole := length_le_takeRun (taken ++ mark :: sign) back written.isDigit
    simp only [List.length_append, List.length_cons] at whole ⊢
    omega

/-- An exponent begins with no digit and no point. -/
theorem Exponent.head {exponent : List Char} (power : Exponent exponent) (back : List Char)
    (present : exponent ≠ []) :
    ∃ mark rest, exponent ++ back = mark :: rest ∧ isDigit mark = false ∧ mark ≠ '.' := by
  cases power with
  | absent => exact absurd rfl present
  | power marked signed written =>
    refine ⟨_, _, rfl, ?_⟩
    rcases marked with rfl | rfl <;> decide

/-- A fraction that stands next is taken, and nothing more when an exponent follows it. -/
theorem length_le_of_fraction {fraction exponent : List Char} (point : Fraction fraction)
    (power : Exponent exponent) (taken back : List Char) :
    taken.length + (fraction ++ exponent).length ≤
      (takeExponent (takeFraction (taken, fraction ++ (exponent ++ back)))).1.length := by
  by_cases absent : exponent = []
  · subst absent
    refine Nat.le_trans ?_ (length_le_takeExponent _)
    rw [List.append_nil, List.nil_append]
    cases point with
    | absent => exact length_le_takeFraction (taken, back)
    | @point digits written =>
      rw [List.cons_append, takeFraction, if_pos (written.beginsWithDigit back)]
      have whole := length_le_takeRun (taken ++ ['.']) back written.isDigit
      simp only [List.length_append, List.length_cons, List.length_nil] at whole ⊢
      omega
  · obtain ⟨mark, rest, next, noDigit, noPoint⟩ := power.head back absent
    have apart : takeFraction (taken, fraction ++ (exponent ++ back)) =
        (taken ++ fraction, exponent ++ back) := by
      cases point with
      | absent =>
        rw [List.nil_append, List.append_nil, next]
        unfold takeFraction
        split
        · rename_i same
          cases same
          exact absurd rfl noPoint
        · rfl
      | @point digits written =>
        rw [List.cons_append, takeFraction, if_pos (written.beginsWithDigit _),
          takeRun_of_stop _ written.isDigit ?_]
        · rw [List.append_assoc, List.singleton_append]
        · rw [next]
          intro c first
          cases first
          exact noDigit
    rw [apart]
    have whole := length_le_of_exponent power (taken ++ fraction) back
    simp only [List.length_append] at whole ⊢
    omega

theorem munch_digit {c : Char} (digit : isDigit c = true) (rest : List Char) :
    munch c rest = takeExponent (takeFraction (takeRun isDigit [] rest)) := by
  rw [munch, if_pos digit]

theorem munch_name {c : Char} (start : NameStart c) (rest : List Char) :
    munch c rest = takeRun continuesName [] rest := by
  have noDigit : ¬ isDigit c = true := by simp [not_isDigit_of_nameStart start]
  rw [munch, if_neg noDigit, if_pos ((beginsName_iff c).mpr start)]

theorem munch_comment (rest : List Char) :
    munch '#' rest = takeRun (fun c => !endsLine c) [] rest := rfl

theorem numberText_munch {c : Char} (digit : isDigit c = true) (rest : List Char) :
    NumberText (c :: (munch c rest).1) := by
  obtain ⟨run, wholly, inside⟩ := exists_run isDigit [] rest
  obtain ⟨fraction, withFraction, point⟩ := exists_fraction (takeRun isDigit [] rest)
  obtain ⟨exponent, withExponent, power⟩ :=
    exists_exponent (takeFraction (takeRun isDigit [] rest))
  rw [munch_digit digit, withExponent, withFraction, wholly, List.nil_append, List.append_assoc]
  exact .mk (digits_of_run digit inside) point power

theorem nameText_munch {c : Char} (start : NameStart c) (rest : List Char) :
    NameText (c :: (munch c rest).1) := by
  obtain ⟨run, wholly, inside⟩ := exists_run continuesName [] rest
  rw [munch_name start, wholly, List.nil_append]
  exact .mk start fun d member => (continuesName_iff d).mp (inside d member)

/-- What comes behind the whole part of a number that goes on is no digit. -/
theorem head_of_parts {fraction exponent back : List Char} (point : Fraction fraction)
    (power : Exponent exponent) (more : fraction ++ exponent ≠ []) :
    ∀ c ∈ (fraction ++ (exponent ++ back)).head?, isDigit c = false := by
  intro c first
  cases point with
  | absent =>
    obtain ⟨mark, rest, next, noDigit, _⟩ := power.head back more
    rw [List.nil_append, next] at first
    cases first
    exact noDigit
  | point written =>
    cases first
    rfl

theorem length_le_munch_of_number {c : Char} {rest front back : List Char}
    (numeral : NumberText front) (here : front ++ back = c :: rest) :
    front.length ≤ (munch c rest).1.length + 1 := by
  obtain @⟨whole, fraction, exponent, digits, point, power⟩ := numeral
  cases whole with
  | nil => exact absurd rfl digits.present
  | cons d run =>
    simp only [List.cons_append, List.append_assoc, List.cons.injEq] at here
    obtain ⟨rfl, rfl⟩ := here
    have digit : isDigit d = true := digits.isDigit d (List.mem_cons_self ..)
    have inside : ∀ e ∈ run, isDigit e = true := fun e member =>
      digits.isDigit e (List.mem_cons_of_mem d member)
    rw [munch_digit digit]
    by_cases bare : fraction ++ exponent = []
    · have wholly := length_le_takeRun [] (fraction ++ (exponent ++ back)) inside
      have grows := length_le_takeFraction
        (takeRun isDigit [] (run ++ (fraction ++ (exponent ++ back))))
      have grows' := length_le_takeExponent
        (takeFraction (takeRun isDigit [] (run ++ (fraction ++ (exponent ++ back)))))
      rw [bare, List.append_nil, List.length_cons]
      rw [List.length_nil] at wholly
      omega
    · rw [takeRun_of_stop [] inside (head_of_parts point power bare), List.nil_append]
      have parts := length_le_of_fraction point power run back
      rw [List.length_append, List.length_cons]
      omega

theorem length_le_munch_of_name {c : Char} {rest front back : List Char} (named : NameText front)
    (here : front ++ back = c :: rest) : front.length ≤ (munch c rest).1.length + 1 := by
  obtain @⟨first, more, start, inside⟩ := named
  rw [List.cons_append] at here
  obtain ⟨rfl, rfl⟩ := List.cons.inj here
  have wholly := length_le_takeRun [] back fun d member => (continuesName_iff d).mpr (inside d member)
  rw [munch_name start, List.length_cons]
  rw [List.length_nil] at wholly
  omega

theorem length_le_munch_of_comment {c : Char} {rest content back : List Char}
    (line : ∀ d ∈ content, d ≠ '\r' ∧ d ≠ '\n') (here : '#' :: content ++ back = c :: rest) :
    ('#' :: content).length ≤ (munch c rest).1.length + 1 := by
  rw [List.cons_append] at here
  obtain ⟨rfl, rfl⟩ := List.cons.inj here
  have inside : ∀ d ∈ content, (!endsLine d) = true := fun d member => by
    rw [(endsLine_eq_false_iff d).mpr (line d member)]
    rfl
  have wholly := length_le_takeRun [] back inside
  rw [munch_comment, List.length_cons]
  rw [List.length_nil] at wholly
  omega

/-- No pattern reaches further than munching does. -/
theorem length_le_munch {c : Char} {rest front back : List Char} {token : Token}
    (fits : Pattern front token) (here : front ++ back = c :: rest) :
    front.length ≤ (munch c rest).1.length + 1 := by
  cases fits with
  | number numeral => exact length_le_munch_of_number numeral here
  | name named => exact length_le_munch_of_name named here
  | comment line => exact length_le_munch_of_comment line here
  | newline ends =>
    rcases ends with rfl | rfl | rfl
    · exact Nat.le_add_left 1 _
    · exact Nat.le_add_left 1 _
    · cases here
      exact Nat.le_refl 2
  | comparison op =>
    cases op with
    | less => exact Nat.le_add_left 1 _
    | greater => exact Nat.le_add_left 1 _
    | lessOrEqual => cases here; exact Nat.le_refl 2
    | greaterOrEqual => cases here; exact Nat.le_refl 2
    | equal => cases here; exact Nat.le_refl 2
    | notEqual => cases here; exact Nat.le_refl 2
  | _ => exact Nat.le_add_left 1 _

theorem longest_munch {c : Char} {rest : List Char} {token : Token}
    (fits : Pattern (c :: (munch c rest).1) token) :
    Longest (c :: (munch c rest).1) (munch c rest).2 token where
  fits := fits
  greatest := by
    intro front back other here others
    rw [List.cons_append, munch_append] at here
    exact length_le_munch others here

theorem takeChar_fst (second : Char) (rest : List Char) :
    (takeChar second rest).1 = [] ∨ (takeChar second rest).1 = [second] := by
  unfold takeChar
  split
  · split
    · rename_i same
      rw [same]
      exact .inr rfl
    · exact .inl rfl
  · exact .inl rfl

theorem pattern_of_punctuation {c : Char} {rest : List Char} {token : Token}
    (known : punctuation? c = some token) : Pattern (c :: (munch c rest).1) token := by
  unfold punctuation? at known
  split at known
  all_goals cases known
  · exact .space
  · exact .tab
  · exact .newline (.inl rfl)
  · have taken : (munch '\r' rest).1 = (takeChar '\n' rest).1 := rfl
    rw [taken]
    rcases takeChar_fst '\n' rest with alone | both
    · rw [alone]
      exact .newline (.inr (.inl rfl))
    · rw [both]
      exact .newline (.inr (.inr rfl))
  all_goals exact .symbol (by decide)

theorem toList_symbol_of_found {text : List Char} {op : Comparison}
    (found : Comparison.ofSymbol? (String.ofList text) = some op) : op.symbol.toList = text := by
  unfold Comparison.ofSymbol? at found
  have symbol : op.symbol = String.ofList text := by
    simpa only [decide_eq_true_eq] using List.find?_some found
  rw [symbol, String.toList_ofList]

theorem pattern_of_sense {c : Char} {rest : List Char} {token : Token}
    (sensed : sense ⟨c, (munch c rest).1⟩ = some token) : Pattern (c :: (munch c rest).1) token := by
  unfold sense at sensed
  split at sensed
  · rename_i digit
    cases sensed
    exact .number (numberText_munch digit rest)
  · split at sensed
    · rename_i start
      cases sensed
      exact .name (nameText_munch ((beginsName_iff c).mp start) rest)
    · split at sensed
      · rename_i mark
        dsimp only at mark
        subst mark
        cases sensed
        refine .comment fun d member => (endsLine_eq_false_iff d).mp ?_
        obtain ⟨run, wholly, inside⟩ := exists_run (fun c => !endsLine c) [] rest
        rw [munch_comment, wholly, List.nil_append] at member
        simpa using inside d member
      · split at sensed
        · rename_i known
          cases sensed
          exact pattern_of_punctuation known
        · obtain ⟨op, found, rfl⟩ := Option.map_eq_some_iff.mp sensed
          have spelled : op.symbol.toList = c :: (munch c rest).1 := toList_symbol_of_found found
          rw [← spelled]
          exact .comparison op

/-- A character that may begin a comparison is munched to a comparison when one is there. -/
theorem sense_comparison {op : Comparison} {c : Char} {more rest back : List Char}
    (spelled : op.symbol.toList = c :: more) (here : more ++ back = rest) :
    ∃ token, sense ⟨c, (munch c rest).1⟩ = some token := by
  cases op with
  | less =>
    have first : ['<'] = c :: more := spelled
    cases first
    have taken : (munch '<' rest).1 = (takeChar '=' rest).1 := rfl
    rw [taken]
    rcases takeChar_fst '=' rest with alone | both
    · rw [alone]
      exact ⟨.comparison .less, rfl⟩
    · rw [both]
      exact ⟨.comparison .lessOrEqual, rfl⟩
  | greater =>
    have first : ['>'] = c :: more := spelled
    cases first
    have taken : (munch '>' rest).1 = (takeChar '=' rest).1 := rfl
    rw [taken]
    rcases takeChar_fst '=' rest with alone | both
    · rw [alone]
      exact ⟨.comparison .greater, rfl⟩
    · rw [both]
      exact ⟨.comparison .greaterOrEqual, rfl⟩
  | lessOrEqual => cases spelled; cases here; exact ⟨.comparison .lessOrEqual, rfl⟩
  | greaterOrEqual => cases spelled; cases here; exact ⟨.comparison .greaterOrEqual, rfl⟩
  | equal => cases spelled; cases here; exact ⟨.comparison .equal, rfl⟩
  | notEqual => cases spelled; cases here; exact ⟨.comparison .notEqual, rfl⟩

/-- Only for comparisons does it depend on more than the first character whether a text has a
sense. -/
theorem sense_of_sense {c : Char} {more rest back : List Char} {token : Token}
    (sensed : sense ⟨c, more⟩ = some token) (here : more ++ back = rest) :
    ∃ token', sense ⟨c, (munch c rest).1⟩ = some token' := by
  unfold sense at sensed
  by_cases digit : isDigit c = true
  · exact ⟨_, by rw [sense, if_pos digit]⟩
  · by_cases start : beginsName c = true
    · exact ⟨_, by rw [sense, if_neg digit, if_pos start]⟩
    · by_cases mark : c = '#'
      · exact ⟨_, by rw [sense, if_neg digit, if_neg start, if_pos mark]⟩
      · rw [if_neg digit, if_neg start, if_neg mark] at sensed
        cases known : punctuation? c with
        | some token' => exact ⟨token', by simp [sense, digit, start, mark, known]⟩
        | none =>
          simp only [known] at sensed
          obtain ⟨op, found, rfl⟩ := Option.map_eq_some_iff.mp sensed
          exact sense_comparison (toList_symbol_of_found found) here

theorem unmatched_of_sense {c : Char} {rest : List Char}
    (senseless : sense ⟨c, (munch c rest).1⟩ = none) : Unmatched (c :: rest) := by
  intro front back token here fits
  cases front with
  | nil => exact fits.ne_nil rfl
  | cons d more =>
    obtain ⟨rfl, behind⟩ := List.cons.inj here
    obtain ⟨token', sensed⟩ := sense_of_sense fits.sense behind
    rw [senseless] at sensed
    cases sensed

end EventQuery.Lexeme
