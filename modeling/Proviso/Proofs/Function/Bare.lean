/- # Proviso.Proofs.Function.Bare -- functions without safety nets

The functions that are always there take their arguments by position, cut phone numbers by bytes and
compute with integers of 64 bits.  Here they are written with operations that trap where they have
no result (`Trap`): an argument that was not given, a cut behind the end of a text or within a
character, a result out of range, a division by zero.

A function that is called with a number of arguments that it admits never traps, and it answers what
the function does (`Function.bareCall_answers`). -/
import Proviso.Function.Registry
import Proviso.Proofs.Function.Reply

namespace Proviso

set_option autoImplicit false

/-! ## Operations that may trap -/

/-- Why an operation has no result, so that the program would stop. -/
inductive Trap where
  | noArgument (position : Nat)
  | pastEnd
  | withinCharacter
  | overflow
  | divisionByZero
  | noFunction (name : String)
  deriving DecidableEq, Repr

/-- A computation that may end in an evaluation error, and in a trap. -/
abbrev Bare (α : Type) : Type := ExceptT EvalError (Except Trap) α

namespace Bare

def argument (args : List Datum) (position : Nat) : Except Trap Datum :=
  match args[position]? with
  | some arg => .ok arg
  | none => .error (.noArgument position)

def argumentsFrom (args : List Datum) (position : Nat) : Except Trap (List Datum) :=
  if position ≤ args.length then .ok (args.drop position) else .error (.noArgument position)

/-- A text without so many bytes at its start. -/
def cut : Nat → List Char → Except Trap (List Char)
  | 0, text => .ok text
  | _ + 1, [] => .error .pastEnd
  | count + 1, c :: rest =>
    if c.utf8Size ≤ count + 1 then cut (count + 1 - c.utf8Size) rest else .error .withinCharacter

/-- The integer of 64 bits that is the number. -/
def exactly (value : Int) : Except Trap Int64 :=
  if Int64.minValue.toInt ≤ value ∧ value ≤ Int64.maxValue.toInt then .ok (.ofInt value)
  else .error .overflow

/-- What is left of a division that is rounded towards zero. -/
def remainder (dividend divisor : Int64) : Except Trap Int64 :=
  if divisor = 0 then .error .divisionByZero else exactly (dividend.toInt.tmod divisor.toInt)

theorem argument_zero (first : Datum) (rest : List Datum) :
    argument (first :: rest) 0 = .ok first := rfl

theorem argument_one (first second : Datum) (rest : List Datum) :
    argument (first :: second :: rest) 1 = .ok second := rfl

theorem argumentsFrom_one (first : Datum) (rest : List Datum) :
    argumentsFrom (first :: rest) 1 = .ok rest := by
  have long_enough : 1 ≤ (first :: rest).length := Nat.succ_le_succ (Nat.zero_le _)
  rw [argumentsFrom, if_pos long_enough, List.drop_one, List.tail_cons]

/-- A text that starts with another one can be cut behind it. -/
theorem cut_append (front back : List Char) :
    cut front.utf8Encode.size (front ++ back) = .ok back := by
  induction front with
  | nil => cases back <;> rfl
  | cons c front ih =>
    have size_eq : (c :: front).utf8Encode.size = c.utf8Size + front.utf8Encode.size := by
      rw [List.utf8Encode_cons, ByteArray.size_append]
      simp [List.utf8Encode]
    -- a character has a byte at least, so the count is not zero and the cut takes a step
    have some_byte := c.utf8Size_pos
    obtain ⟨count, count_eq⟩ : ∃ count, c.utf8Size + front.utf8Encode.size = count + 1 :=
      ⟨c.utf8Size + front.utf8Encode.size - 1, by omega⟩
    have here : c.utf8Size ≤ count + 1 := count_eq ▸ Nat.le_add_right ..
    have behind : count + 1 - c.utf8Size = front.utf8Encode.size := by omega
    rw [size_eq, count_eq, List.cons_append, cut, if_pos here, behind, ih]

theorem exactly_toInt (value : Int64) : exactly value.toInt = .ok value := by
  rw [exactly, if_pos ⟨value.minValue_le_toInt, value.toInt_le⟩, Int64.ofInt_toInt]

/-- A remainder is in range whatever is divided, the least integer by minus one included. -/
theorem remainder_eq (dividend : Int64) {divisor : Int64} (not_zero : divisor ≠ 0) :
    remainder dividend divisor = .ok (dividend % divisor) := by
  rw [remainder, if_neg not_zero, ← Int64.toInt_mod, exactly_toInt]

/-! ## Answers -/

/-- Whether an evaluation came to its result with all arguments that were looked at. -/
def Complete {α : Type} (result : Except EvalError α) : Prop :=
  ∀ name position, result ≠ .error (.function name (.missingArgument position))

/-- A computation does not trap: it comes to a result, and no argument is missing in it. -/
structure Answers {α : Type} (outcome : Bare α) (result : Except EvalError α) : Prop where
  no_trap : outcome = Except.ok result
  complete : Complete result

namespace Answers

variable {α β : Type}

theorem pure (value : α) : Answers (Pure.pure value) (.ok value) where
  no_trap := rfl
  complete := fun _ _ other => nomatch other

theorem bind {outcome : Bare α} {result : Except EvalError α} {next : α → Bare β}
    {next_result : α → Except EvalError β} (first : Answers outcome result)
    (second : ∀ value, result = .ok value → Answers (next value) (next_result value)) :
    Answers (outcome >>= next) (result.bind next_result) := by
  obtain ⟨rfl, complete⟩ := first
  cases result with
  | error error =>
    refine ⟨rfl, fun name position missing => complete name position ?_⟩
    cases missing
    rfl
  | ok value => exact second value rfl

theorem map {outcome : Bare α} {result : Except EvalError α} (answers : Answers outcome result)
    (apply : α → β) :
    Answers (outcome >>= fun value => Pure.pure (apply value)) (result.map apply) := by
  have both := answers.bind fun value _ => Answers.pure (apply value)
  cases result <;> exact both

end Answers

end Bare

/-! ## The bodies of functions -/

open Bare

/-- What a function does, with operations that may trap. -/
inductive BareBehaviour where
  | predicate (judge : List Datum → Except Trap Judgement)
  | value (compute : List Datum → Except Trap (Except FunctionFault Datum))

/-- A count; counts past the largest number are that number. -/
def bareCount (n : Nat) : Except Trap Datum :=
  if (n : Int) ≤ Int64.maxValue.toInt then Datum.int <$> exactly n else .ok (.int Int64.maxValue)

def bareLengthOf (textLength : String → Nat) (args : List Datum) :
    Except Trap (Except FunctionFault Datum) := do
  match ← argument args 0 with
  | .str text => return .ok (← bareCount (textLength text))
  | .sequence _ length | .map _ length => return .ok (← bareCount length)
  | .nil => return .ok (.int 0)
  | other => return .error (.unsupportedArgument other.kind)

def bareMatchPattern [PatternLibrary] (args : List Datum) : Except Trap (Except FunctionFault Datum) := do
  match ← argument args 0 with
  | .str pattern =>
    match PatternLibrary.compile? pattern with
    | none => return .error .invalidPattern
    | some pattern =>
      match ← argument args 1 with
      | .str text => return .ok (.bool (PatternLibrary.isMatch pattern text))
      | _ => return .ok (.bool false)
  | _ => return .error .patternNotText

def bareSprintf (args : List Datum) : Except Trap (Except FunctionFault Datum) := do
  match ← argument args 0 with
  | .str format =>
    let rest ← argumentsFrom args 1
    return .ok (.str (String.ofList (formatText format.toList rest)))
  | _ => return .error .formatNotText

def bareIsMailAddress (args : List Datum) : Except Trap Judgement := do
  match ← argument args 0 with
  | .str text =>
    if mailAddress.accepts text.toList then return .pass
    else return .fail "email format is incorrect"
  | _ => return .fail "email format is incorrect"

def bareCheckPhone (requested : Region) (text : List Char) : Except Trap (Except PhoneFault Unit) :=
  match text.filter (!isPhoneFiller ·) with
  | '+' :: number =>
    if isDigits number then
      match Region.dialled? requested number with
      | some region => do
        let national ← cut region.callingCode.utf8ByteSize number
        return checkNational region national
      | none => return .error .badRegion
    else return .error .notANumber
  | number => return if isDigits number then checkNational requested number else .error .notANumber

def bareIsPhone (args : List Datum) : Except Trap Judgement := do
  let checked ← match requestedRegion? args with
    | none => pure (.error .badRegion)
    | some region => do
      match ← argument args 0 with
      | .str text => bareCheckPhone region text.toList
      | _ => pure (.error .notANumber)
  match checked with
  | .ok () => return .pass
  | .error fault => return .fail fault.message

namespace Function

/-- The bodies of the functions that are always there.  Two of them look at no position. -/
def bareBody? [PatternLibrary] : String → Option BareBehaviour
  | "len" => some (.value (bareLengthOf String.utf8ByteSize))
  | "mblen" => some (.value (bareLengthOf String.length))
  | "regexp" => some (.value bareMatchPattern)
  | "sprintf" => some (.value bareSprintf)
  | "in" => some (.predicate fun args => .ok (isOneOf args))
  | "range" => some (.predicate fun args => .ok (isWithin args))
  | "email" => some (.predicate bareIsMailAddress)
  | "phone" => some (.predicate bareIsPhone)
  | _ => none

def bareCall [PatternLibrary] (function : Function) (args : List Datum) : Bare Datum :=
  match bareBody? function.name with
  | none => Except.error (.noFunction function.name)
  | some (.predicate judge) => do
    match ← (judge args : Except Trap Judgement) with
    | .pass => return .bool true
    | .fail _ => return .bool false
    | .missing position => throw (.function function.name (.missingArgument position))
  | some (.value compute) => ExceptT.mk do
    return (← compute args).mapError (.function function.name)

end Function

/-! ## What the bodies come to -/

/-- A body computes the result without a trap, and no argument is missing. -/
def Computes (outcome : Except Trap (Except FunctionFault Datum))
    (result : Except FunctionFault Datum) : Prop :=
  outcome = .ok result ∧ ∀ position, result ≠ .error (.missingArgument position)

/-- A body judges so without a trap, and no argument is missing. -/
def Judges (outcome : Except Trap Judgement) (judgement : Judgement) : Prop :=
  outcome = .ok judgement ∧ ∀ position, judgement ≠ .missing position

theorem bareCount_eq (n : Nat) : bareCount n = .ok (.count n) := by
  have max_eq : Int64.maxValue.toInt = 0x7fffffffffffffff := rfl
  have min_neg : Int64.minValue.toInt ≤ 0 := by decide
  unfold bareCount Datum.count exactly
  by_cases fits : (n : Int) ≤ Int64.maxValue.toInt
  · have in_range : Int64.minValue.toInt ≤ (n : Int) ∧ (n : Int) ≤ Int64.maxValue.toInt :=
      ⟨by omega, fits⟩
    have same : min n 0x7fffffffffffffff = n := by omega
    rw [if_pos fits, if_pos in_range, same]
    rfl
  · have most : min n 0x7fffffffffffffff = 0x7fffffffffffffff := by omega
    rw [if_neg fits, most]
    rfl

theorem computes_lengthOf (textLength : String → Nat) {args : List Datum}
    (given : 0 < args.length) :
    Computes (bareLengthOf textLength args) (lengthOf textLength args) := by
  obtain ⟨first, rest, rfl⟩ := List.exists_cons_of_length_pos given
  unfold bareLengthOf
  simp only [argument_zero, bareCount_eq]
  cases first <;> exact ⟨rfl, by simp [lengthOf]⟩

theorem computes_matchPattern [PatternLibrary] {args : List Datum} (given : 1 < args.length) :
    Computes (bareMatchPattern args) (Function.matchPattern args .empty).1 := by
  obtain ⟨first, rest, rfl⟩ := List.exists_cons_of_length_pos (Nat.lt_of_succ_lt given)
  obtain ⟨second, rest, rfl⟩ := List.exists_cons_of_length_pos (Nat.lt_of_succ_lt_succ given)
  unfold bareMatchPattern Function.matchPattern
  rw [argument_zero, argument_one]
  cases first
  case str text =>
    have read := PatternCache.get_fst .empty text
    cases got : PatternCache.empty.get text with
    | mk found patterns =>
      rw [got] at read
      cases found with
      | none =>
        refine ⟨?_, by simp [got]⟩
        simp only [bind, Except.bind, ← read, got]
        rfl
      | some pattern =>
        cases second <;> refine ⟨?_, by simp [got]⟩ <;>
          (simp only [bind, Except.bind, ← read, got]; rfl)
  all_goals exact ⟨rfl, by simp⟩

theorem computes_sprintf {args : List Datum} (given : 0 < args.length) :
    Computes (bareSprintf args) (sprintf args) := by
  obtain ⟨first, rest, rfl⟩ := List.exists_cons_of_length_pos given
  unfold bareSprintf sprintf
  rw [argument_zero, argumentsFrom_one]
  cases first <;> exact ⟨rfl, by simp⟩

theorem judges_isMailAddress {args : List Datum} (given : 0 < args.length) :
    Judges (bareIsMailAddress args) (isMailAddress args) := by
  obtain ⟨first, rest, rfl⟩ := List.exists_cons_of_length_pos given
  unfold bareIsMailAddress isMailAddress
  rw [argument_zero]
  cases first
  case str text =>
    simp only [bind, Except.bind]
    split <;> exact ⟨rfl, by simp⟩
  all_goals exact ⟨rfl, by simp⟩

theorem judges_isOneOf (args : List Datum) : Judges (.ok (isOneOf args)) (isOneOf args) := by
  refine ⟨rfl, fun position => ?_⟩
  unfold isOneOf
  split
  · simp
  · split <;> simp

theorem judges_isWithin (args : List Datum) : Judges (.ok (isWithin args)) (isWithin args) := by
  refine ⟨rfl, fun position => ?_⟩
  unfold isWithin
  split
  · dsimp only
    split <;> split <;> simp
  · simp

/-- The calling code is cut off where it ends, because the number starts with it. -/
theorem cut_callingCode {requested region : Region} {number : List Char}
    (dialled : Region.dialled? requested number = some region) :
    cut region.callingCode.utf8ByteSize number =
      .ok (number.drop region.callingCode.length) := by
  have dials : region.dials number = true := by
    have found := List.find?_some dialled
    exact found
  obtain ⟨rest, rfl⟩ := List.isPrefixOf_iff_prefix.mp dials
  have size_eq : region.callingCode.utf8ByteSize = region.callingCode.toList.utf8Encode.size := by
    rw [String.utf8Encode_toList]
    rfl
  rw [size_eq, cut_append, ← String.length_toList, List.drop_left]

theorem bareCheckPhone_eq (requested : Region) (text : List Char) :
    bareCheckPhone requested text = .ok (checkPhone requested text) := by
  unfold bareCheckPhone checkPhone
  generalize text.filter (!isPhoneFiller ·) = cleaned
  -- only a plus at the start leads to a cut
  rcases cleaned with _ | ⟨c, number⟩
  · rfl
  · by_cases plus : c = '+'
    · subst plus
      show (if isDigits number then _ else _) = Except.ok (if isDigits number then _ else _)
      cases isDigits number with
      | false => rfl
      | true =>
        cases dialled : Region.dialled? requested number with
        | none => rfl
        | some region =>
          simp only [if_true, cut_callingCode dialled]
          rfl
    · simp only [List.cons.injEq, plus, false_and, imp_self, implies_true]
      rfl

theorem judges_isPhone {args : List Datum} (given : 0 < args.length) :
    Judges (bareIsPhone args) (isPhone args) := by
  obtain ⟨first, rest, rfl⟩ := List.exists_cons_of_length_pos given
  have checked : bareIsPhone (first :: rest) = .ok (isPhone (first :: rest)) := by
    unfold bareIsPhone isPhone checkPhoneArgs
    rw [argument_zero]
    cases requestedRegion? (first :: rest) with
    | none => rfl
    | some region =>
      cases first
      case str text =>
        simp only [bind, Except.bind, bareCheckPhone_eq]
        cases checkPhone region text.toList <;> rfl
      all_goals rfl
  refine ⟨checked, fun position => ?_⟩
  unfold isPhone
  split <;> simp_all

end Proviso
