import MiniMips.Numeral

/-!
Contract: the numbers of JSON documents.

Owns: the grammar of a number, and the integer that a number written as a plain
integer denotes.

A number with a fraction or an exponent denotes no integer here, whatever its
value is, and neither does a zero with a minus sign.
-/

namespace MiniMips.Json.Number

/-- Split off a run of decimal digits, which may not be empty. -/
def digits? (characters : List Char) : Option (List Char × List Char) :=
  let digits := characters.takeWhile Char.isDigit
  if digits.isEmpty then
    none
  else
    some (digits, characters.dropWhile Char.isDigit)

/-- Split off the digits before the point.  A zero at the front stands alone. -/
def wholePart? : List Char → Option (List Char × List Char)
  | '0' :: rest => some (['0'], rest)
  | characters => digits? characters

/-- Skip a fraction, if there is one.  The flag tells whether there was. -/
def skipFraction? : List Char → Option (Bool × List Char)
  | '.' :: rest => (digits? rest).map (fun found => (true, found.2))
  | characters => some (false, characters)

def skipSign : List Char → List Char
  | '+' :: rest => rest
  | '-' :: rest => rest
  | characters => characters

/-- Skip an exponent, if there is one.  The flag tells whether there was. -/
def skipExponent? : List Char → Option (Bool × List Char)
  | 'e' :: rest => (digits? (skipSign rest)).map (fun found => (true, found.2))
  | 'E' :: rest => (digits? (skipSign rest)).map (fun found => (true, found.2))
  | characters => some (false, characters)

/-- The integer that a sign and digits denote. -/
def integer? (negative : Bool) (digits : List Char) : Option Int :=
  match Numeral.value? 10 digits with
  | none => none
  | some magnitude =>
      if negative then
        if magnitude = 0 then none else some (-(magnitude : Int))
      else
        some (magnitude : Int)

/-- Read an unsigned number.  The first component is the integer it denotes
after its sign. -/
def readUnsigned? (negative : Bool) (characters : List Char) :
    Option (Option Int × List Char) :=
  match wholePart? characters with
  | none => none
  | some (digits, afterWhole) =>
      match skipFraction? afterWhole with
      | none => none
      | some (hasFraction, afterFraction) =>
          match skipExponent? afterFraction with
          | none => none
          | some (hasExponent, rest) =>
              if hasFraction || hasExponent then
                some (none, rest)
              else
                some (integer? negative digits, rest)

def read? : List Char → Option (Option Int × List Char)
  | '-' :: rest => readUnsigned? true rest
  | characters => readUnsigned? false characters

theorem length_digits?_lt {characters : List Char}
    {found : List Char × List Char} (equation : digits? characters = some found) :
    found.2.length < characters.length := by
  unfold digits? at equation
  simp only at equation
  split at equation
  · simp at equation
  · next notEmpty =>
    cases equation
    have parts := congrArg List.length
      (List.takeWhile_append_dropWhile (p := Char.isDigit) (l := characters))
    rw [List.length_append] at parts
    have positive : (characters.takeWhile Char.isDigit).length ≠ 0 := by
      simpa [List.isEmpty_iff] using notEmpty
    simp only
    omega

theorem length_wholePart?_lt {characters : List Char}
    {found : List Char × List Char}
    (equation : wholePart? characters = some found) :
    found.2.length < characters.length := by
  unfold wholePart? at equation
  split at equation
  · cases equation
    simp
  · exact length_digits?_lt equation

theorem length_skipFraction?_le {characters : List Char}
    {found : Bool × List Char}
    (equation : skipFraction? characters = some found) :
    found.2.length ≤ characters.length := by
  unfold skipFraction? at equation
  split at equation
  · obtain ⟨inner, innerFound, rfl⟩ := Option.map_eq_some_iff.mp equation
    have bound := length_digits?_lt innerFound
    simp only [List.length_cons]
    omega
  · cases equation
    exact Nat.le_refl _

theorem length_skipSign_le (characters : List Char) :
    (skipSign characters).length ≤ characters.length := by
  unfold skipSign
  split <;> simp

theorem length_skipExponent?_le {characters : List Char}
    {found : Bool × List Char}
    (equation : skipExponent? characters = some found) :
    found.2.length ≤ characters.length := by
  unfold skipExponent? at equation
  split at equation
  · next rest =>
    obtain ⟨inner, innerFound, rfl⟩ := Option.map_eq_some_iff.mp equation
    have bound := length_digits?_lt innerFound
    have signBound := length_skipSign_le rest
    simp only [List.length_cons]
    omega
  · next rest =>
    obtain ⟨inner, innerFound, rfl⟩ := Option.map_eq_some_iff.mp equation
    have bound := length_digits?_lt innerFound
    have signBound := length_skipSign_le rest
    simp only [List.length_cons]
    omega
  · cases equation
    exact Nat.le_refl _

theorem length_readUnsigned?_lt {negative : Bool} {characters : List Char}
    {found : Option Int × List Char}
    (equation : readUnsigned? negative characters = some found) :
    found.2.length < characters.length := by
  unfold readUnsigned? at equation
  split at equation
  · simp at equation
  · next wholeEquation =>
    have wholeBound := length_wholePart?_lt wholeEquation
    split at equation
    · simp at equation
    · next fractionEquation =>
      have fractionBound := length_skipFraction?_le fractionEquation
      split at equation
      · simp at equation
      · next exponentEquation =>
        have exponentBound := length_skipExponent?_le exponentEquation
        simp only at wholeBound fractionBound exponentBound
        split at equation <;> cases equation <;> simp only <;> omega

/-- Reading a number consumes at least one digit. -/
theorem length_read?_lt {characters : List Char}
    {found : Option Int × List Char}
    (equation : read? characters = some found) :
    found.2.length < characters.length := by
  unfold read? at equation
  split at equation
  · have bound := length_readUnsigned?_lt equation
    simp only [List.length_cons]
    omega
  · exact length_readUnsigned?_lt equation

end MiniMips.Json.Number
