import MapReplica.Number.Numeral
import MapReplica.Text.DecimalDigit

/-!
# Decimal numerals read back

The digits of a number are ASCII digits, and reading them gives the number again as
long as it is not above the bound of the reading.
-/

namespace MapReplica.Number

theorem digit?_digitChar {d : Nat} (small : d < 10) : digit? (Nat.digitChar d) = some d := by
  decide +revert

theorem isDecimalDigit_digitChar {d : Nat} (small : d < 10) :
    Text.isDecimalDigit (Nat.digitChar d) = true := by
  decide +revert

theorem digits_ne_nil (n : Nat) : digits n ≠ [] := Nat.toDigits_ne_nil

/-- The digits of a number are those of its tenth part and one more. -/
theorem digits_eq (n : Nat) :
    digits n = if n < 10 then [Nat.digitChar n] else digits (n / 10) ++ [Nat.digitChar (n % 10)] :=
  Nat.toDigits_eq_if (by decide)

theorem digits_induction {motive : Nat → Prop} (n : Nat)
    (single : ∀ d, d < 10 → motive d)
    (longer : ∀ m, 10 ≤ m → motive (m / 10) → motive m) : motive n := by
  induction n using Nat.strongRecOn with
  | _ n ih =>
      by_cases small : n < 10
      · exact single n small
      · exact longer n (by omega) (ih (n / 10) (by omega))

/-- What holds of the ten digits holds of every character of a numeral. -/
theorem forall_mem_digits {Holds : Char → Prop} (each : ∀ d < 10, Holds (Nat.digitChar d)) (n : Nat) :
    ∀ c ∈ digits n, Holds c := by
  induction n using digits_induction with
  | single d small =>
      rw [digits_eq, if_pos small]
      simpa using each d small
  | longer m large ih =>
      rw [digits_eq, if_neg (by omega)]
      intro c hc
      rcases List.mem_append.mp hc with front | last
      · exact ih c front
      · rw [List.mem_singleton.mp last]
        exact each (m % 10) (Nat.mod_lt m (by decide))

theorem isDecimalDigit_of_mem_digits {n : Nat} :
    ∀ c ∈ digits n, Text.isDecimalDigit c = true :=
  forall_mem_digits (fun _ small => isDecimalDigit_digitChar small) n

/-- A character that is no decimal digit does not occur among digits. -/
theorem not_mem_digits {n : Nat} {c : Char} (other : Text.isDecimalDigit c = false) :
    c ∉ digits n := by
  intro member
  rw [isDecimalDigit_of_mem_digits c member] at other
  cases other

theorem readDigits_append (bound value : Nat) (front back : List Char) :
    readDigits bound value (front ++ back) =
      (readDigits bound value front).bind fun next => readDigits bound next back := by
  induction front generalizing value with
  | nil => rfl
  | cons c rest ih =>
      simp only [List.cons_append, readDigits]
      split
      · rfl
      · split
        · rfl
        · exact ih _

/-- Reading the digits of a number gives the number. -/
theorem readDigits_digits {bound n : Nat} (fits : n ≤ bound) :
    readDigits bound 0 (digits n) = .ok n := by
  induction n using digits_induction with
  | single d small =>
      rw [digits_eq, if_pos small]
      simp [readDigits, digit?_digitChar small, Nat.not_lt.mpr fits]
  | longer m large ih =>
      rw [digits_eq, if_neg (by omega), readDigits_append, ih (by omega)]
      have whole : m / 10 * 10 + m % 10 = m := by omega
      simp [Except.bind, readDigits, digit?_digitChar (Nat.mod_lt m (by decide : 0 < 10)), whole,
        Nat.not_lt.mpr fits]

/-- A number that was read is not above the bound. -/
theorem readDigits_le {bound value result : Nat} {text : List Char} (start : value ≤ bound)
    (read : readDigits bound value text = .ok result) : result ≤ bound := by
  induction text generalizing value with
  | nil =>
      cases read
      exact start
  | cons c rest ih =>
      simp only [readDigits] at read
      split at read
      · cases read
      · split at read
        · cases read
        · exact ih (by omega) read

/-- What is read within a bound is read within any greater one. -/
theorem readDigits_mono {bound wider value result : Nat} {text : List Char} (wide : bound ≤ wider)
    (read : readDigits bound value text = .ok result) :
    readDigits wider value text = .ok result := by
  induction text generalizing value with
  | nil => exact read
  | cons c rest ih =>
      simp only [readDigits] at read ⊢
      cases digit : digit? c with
      | none => simp [digit] at read
      | some d =>
          simp only [digit] at read ⊢
          split at read
          case isTrue => cases read
          case isFalse small =>
            rw [if_neg (by omega)]
            exact ih read

/-- The digits of a number are read exactly if it is not above the bound. -/
theorem readDigits_digits_eq_ok_iff {bound n result : Nat} :
    readDigits bound 0 (digits n) = .ok result ↔ result = n ∧ n ≤ bound := by
  constructor
  · intro read
    have wide := readDigits_mono (Nat.le_max_left bound n) read
    rw [readDigits_digits (Nat.le_max_right bound n)] at wide
    cases wide
    exact ⟨rfl, readDigits_le (Nat.zero_le bound) read⟩
  · rintro ⟨rfl, fits⟩
    exact readDigits_digits fits

theorem digits_injective {m n : Nat} (same : digits m = digits n) : m = n := by
  have first := readDigits_digits (Nat.le_max_left m n)
  have second := readDigits_digits (Nat.le_max_right m n)
  rw [same, second] at first
  cases first
  rfl

/-- A numeral has a digit and no sign, so it is read as its digits are. -/
theorem read_digits {bound n : Nat} (fits : n ≤ bound) : read bound (digits n) = .ok n := by
  obtain ⟨c, rest, first⟩ := List.exists_cons_of_ne_nil (digits_ne_nil n)
  have noSign : c ≠ '+' := by
    rintro rfl
    have digit := isDecimalDigit_of_mem_digits '+' (first ▸ List.mem_cons_self)
    exact absurd digit (by decide)
  rw [← readDigits_digits fits, first, read]
  · simp
  · rintro tail same
    exact noSign (List.cons.inj same).1

/-! ## The value of digits -/

theorem digit?_eq (c : Char) : digit? c = if c.isDigit then some (c.toNat - '0'.toNat) else none := by
  have same : ('0' ≤ c ∧ c ≤ '9') ↔ c.isDigit = true := by
    simp [Char.isDigit, Char.le_def]
  simp only [digit?, same]

theorem le_ofDigitChars (text : List Char) (value : Nat) : value ≤ Nat.ofDigitChars 10 text value := by
  induction text generalizing value with
  | nil => simp
  | cons c rest ih =>
      rw [Nat.ofDigitChars_cons]
      have later := ih (10 * value + (c.toNat - '0'.toNat))
      omega

/-- What is read is the value of the digits, all of them ASCII digits, if that is not above the bound. -/
theorem readDigits_eq_ok_iff {bound value result : Nat} {text : List Char} (start : value ≤ bound) :
    readDigits bound value text = .ok result ↔
      (∀ c ∈ text, c.isDigit = true) ∧ result = Nat.ofDigitChars 10 text value ∧ result ≤ bound := by
  induction text generalizing value with
  | nil =>
      simp only [readDigits, Except.ok.injEq, List.not_mem_nil, false_imp_iff, implies_true,
        Nat.ofDigitChars_nil, true_and]
      constructor
      · rintro rfl
        exact ⟨rfl, start⟩
      · rintro ⟨rfl, -⟩
        rfl
  | cons c rest ih =>
      have shifted : value * 10 + (c.toNat - '0'.toNat) = 10 * value + (c.toNat - '0'.toNat) := by
        omega
      rw [readDigits, digit?_eq, Nat.ofDigitChars_cons, List.forall_mem_cons, ← shifted]
      cases ascii : c.isDigit with
      | false => simp
      | true =>
          simp only [if_true, true_and]
          split
          case isTrue large =>
            -- Later digits only make the value greater.
            have more := le_ofDigitChars rest (value * 10 + (c.toNat - '0'.toNat))
            constructor
            · intro impossible
              cases impossible
            · rintro ⟨-, rfl, fits⟩
              omega
          case isFalse small => exact ih (by omega)

/-- A text spells a number: a plus sign or none, and then its digits, ASCII digits and at least one. -/
def Spells (text : List Char) (n : Nat) : Prop :=
  ∃ run, (text = run ∨ text = '+' :: run) ∧ run ≠ [] ∧ (∀ c ∈ run, c.isDigit = true) ∧
    n = Nat.ofDigitChars 10 run 0

theorem spells_nil (n : Nat) : ¬ Spells [] n := by
  rintro ⟨run, rfl | signed, nonempty, -⟩
  · exact nonempty rfl
  · cases signed

theorem spells_plus_iff {rest : List Char} {n : Nat} :
    Spells ('+' :: rest) n ↔
      rest ≠ [] ∧ (∀ c ∈ rest, c.isDigit = true) ∧ n = Nat.ofDigitChars 10 rest 0 := by
  constructor
  · rintro ⟨run, rfl | signed, nonempty, ascii, value⟩
    · exact absurd (ascii '+' List.mem_cons_self) (by decide)
    · cases signed
      exact ⟨nonempty, ascii, value⟩
  · rintro ⟨nonempty, ascii, value⟩
    exact ⟨rest, .inr rfl, nonempty, ascii, value⟩

theorem spells_unsigned_iff {c : Char} {rest : List Char} {n : Nat} (unsigned : c ≠ '+') :
    Spells (c :: rest) n ↔
      (∀ d ∈ c :: rest, d.isDigit = true) ∧ n = Nat.ofDigitChars 10 (c :: rest) 0 := by
  constructor
  · rintro ⟨run, rfl | signed, -, ascii, value⟩
    · exact ⟨ascii, value⟩
    · exact absurd (List.cons.inj signed).1 unsigned
  · rintro ⟨ascii, value⟩
    exact ⟨c :: rest, .inl rfl, List.cons_ne_nil c rest, ascii, value⟩

/-- Reading accepts exactly what spells a number that is not above the bound. -/
theorem read_eq_ok_iff {bound n : Nat} {text : List Char} :
    read bound text = .ok n ↔ Spells text n ∧ n ≤ bound := by
  cases text with
  | nil => simp [read, spells_nil]
  | cons c rest =>
      by_cases signed : c = '+'
      · subst signed
        rw [read, spells_plus_iff]
        split
        case isTrue nothing => simp [List.isEmpty_iff.mp nothing]
        case isFalse something =>
          rw [readDigits_eq_ok_iff (Nat.zero_le bound)]
          have nonempty : rest ≠ [] := fun nothing => something (List.isEmpty_iff.mpr nothing)
          simp only [nonempty, ne_eq, not_false_eq_true, true_and, and_assoc]
      · have unsigned : read bound (c :: rest) = readDigits bound 0 (c :: rest) := by
          rw [read]
          · simp
          · rintro tail same
            exact signed (List.cons.inj same).1
        rw [unsigned, readDigits_eq_ok_iff (Nat.zero_le bound), spells_unsigned_iff signed,
          and_assoc]

/-! ## The next number -/

/--
From a numeral to the next one: the nines at the end become zeros, and the digit in front of
them grows by one; if there is none, a one comes in front.
-/
inductive Succession : List Char → List Char → Prop
  | carried (front : List Char) {d : Nat} (small : d < 9) (nines : Nat) :
      Succession (front ++ Nat.digitChar d :: List.replicate nines '9')
        (front ++ Nat.digitChar (d + 1) :: List.replicate nines '0')
  | lengthened (nines : Nat) :
      Succession (List.replicate (nines + 1) '9') ('1' :: List.replicate (nines + 1) '0')

theorem Succession.append {text next : List Char} (succession : Succession text next) :
    Succession (text ++ ['9']) (next ++ ['0']) := by
  cases succession with
  | carried front small nines =>
      simp only [List.append_assoc, List.cons_append, ← List.replicate_succ']
      exact .carried front small (nines + 1)
  | lengthened nines =>
      simp only [List.cons_append, ← List.replicate_succ']
      exact .lengthened (nines + 1)

theorem succession_digits (n : Nat) : Succession (digits n) (digits (n + 1)) := by
  induction n using digits_induction with
  | single d small =>
      rw [digits_eq d, if_pos small]
      by_cases last : d = 9
      · subst last
        exact .lengthened 0
      · rw [digits_eq, if_pos (by omega)]
        exact .carried [] (by omega) 0
  | longer m large ih =>
      rw [digits_eq m, if_neg (by omega), digits_eq (m + 1), if_neg (by omega)]
      by_cases last : m % 10 = 9
      · have front : (m + 1) / 10 = m / 10 + 1 := by omega
        have zero : (m + 1) % 10 = 0 := by omega
        rw [last, front, zero]
        exact ih.append
      · have front : (m + 1) / 10 = m / 10 := by omega
        have next : (m + 1) % 10 = m % 10 + 1 := by omega
        rw [front, next]
        exact .carried (digits (m / 10)) (by omega) 0

end MapReplica.Number
