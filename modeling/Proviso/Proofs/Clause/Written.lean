/- # Proviso.Proofs.Clause.Written -- the texts of a clause

A clause is written as tokens, and tokens are laid out with any blanks before, between and behind
them.  Every operand of an operator stands in parentheses.  A number has any run of digits that
denotes it, and each quoted text either of the two quotes, so a clause has many texts.

Not every clause has a text: names must be identifiers, an index must fit in 64 bits, and a minus
over a number would be read as the negative number.  `Clause.Printable` says which clauses have
one, floating-point numbers aside. -/
import Proviso.Expr.Chain
import Proviso.Grammar.Clause

namespace Proviso

set_option autoImplicit false

/-! ## Which clauses have a text -/

/-- A letter or underscore, and then letters, digits and underscores. -/
def isIdentifier (name : List Char) : Bool :=
  match name with
  | [] => false
  | first :: rest => Phrase.isIdentStart first && rest.all Phrase.isIdentChar

def PathStep.Printable : PathStep → Prop
  | .field name => isIdentifier name.toList = true
  | .index position => position < UInt64.size

/-- A path starts with a field. -/
def PathPrintable : List PathStep → Prop
  | .field name :: steps => isIdentifier name.toList = true ∧ ∀ step ∈ steps, step.Printable
  | _ => False

/-- The least integer has no text: its digits alone denote no integer. -/
def Literal.Printable : Literal → Prop
  | .int value => value ≠ Int64.minValue
  | .float _ => False
  | .nil | .bool _ | .str _ => True

def Literal.isNumber : Literal → Bool
  | .int _ | .float _ => true
  | .nil | .bool _ | .str _ => false

mutual

def Expr.Printable : Expr → Prop
  | .literal value => value.Printable
  | .current => True
  | .sibling path => PathPrintable path
  | .unary op operand => operand.Printable ∧
      (op = .neg → ∀ value, operand = .literal value → value.isNumber = false)
  | .arithmetic _ left right | .comparison _ left right | .connective _ left right =>
    left.Printable ∧ right.Printable
  | .call name args => isIdentifier name.toList = true ∧ AllPrintable args

def AllPrintable : List Expr → Prop
  | [] => True
  | arg :: rest => arg.Printable ∧ AllPrintable rest

end

def Clause.Printable (clause : Clause) : Prop :=
  clause.condition.Printable ∧ ∀ message ∈ clause.message, message.Printable

/-! ## Tokens -/

/-- Digits that denote the number. -/
def IsNumeral (value : Nat) (digits : List Char) : Prop :=
  digits ≠ [] ∧ (∀ c ∈ digits, c.isDigit = true) ∧ Nat.ofDigitChars 10 digits 0 = value

/-- A backslash stands before a quote and before a backslash. -/
def charInQuotes (quote c : Char) : List Char := if c = quote ∨ c = '\\' then ['\\', c] else [c]

def textInQuotes (quote : Char) (text : List Char) : List Char := text.flatMap (charInQuotes quote)

def Literal.Written : Literal → List (List Char) → Prop
  | .nil, tokens => tokens = ["nil".toList]
  | .bool value, tokens => tokens = [if value then "true".toList else "false".toList]
  | .int value, tokens => ∃ digits, IsNumeral value.toInt.natAbs digits ∧
      tokens = if value.toInt < 0 then [['-'], digits] else [digits]
  | .float _, _ => False
  | .str value, tokens => ∃ quote, (quote = '\'' ∨ quote = '"') ∧
      tokens = [quote :: (textInQuotes quote value.toList ++ [quote])]

def PathStep.Written : PathStep → List Char → Prop
  | .field name, chars => chars = '.' :: name.toList
  | .index position, chars => ∃ digits, IsNumeral position digits ∧ chars = '[' :: (digits ++ [']'])

def StepsWritten : List PathStep → List Char → Prop
  | [], chars => chars = []
  | step :: rest, chars => ∃ front back, step.Written front ∧ StepsWritten rest back ∧
      chars = front ++ back

/-- A path is one token. -/
def PathWritten : List PathStep → List Char → Prop
  | .field name :: steps, chars => ∃ back, StepsWritten steps back ∧ chars = name.toList ++ back
  | _, _ => False

def inParentheses (tokens : List (List Char)) : List (List Char) := ['('] :: (tokens ++ [[')']])

/-- Two operands in parentheses and an operator between. -/
def joinedBy (symbol : String) (left right : List (List Char)) : List (List Char) :=
  inParentheses left ++ symbol.toList :: inParentheses right

mutual

def Expr.Written : Expr → List (List Char) → Prop
  | .literal value, tokens => value.Written tokens
  | .current, tokens => tokens = [['$']]
  | .sibling path, tokens => ∃ chars, PathWritten path chars ∧
      tokens = inParentheses [chars] ++ [['$']]
  | .unary op operand, tokens => ∃ inner, operand.Written inner ∧
      tokens = op.symbol.toList :: inParentheses inner
  | .arithmetic op left right, tokens => ∃ first second, left.Written first ∧
      right.Written second ∧ tokens = joinedBy op.symbol first second
  | .comparison op left right, tokens => ∃ first second, left.Written first ∧
      right.Written second ∧ tokens = joinedBy op.symbol first second
  | .connective op left right, tokens => ∃ first second, left.Written first ∧
      right.Written second ∧ tokens = joinedBy op.symbol first second
  | .call name args, tokens => ∃ inner, ArgsWritten args inner ∧
      tokens = name.toList :: inParentheses inner

def ArgsWritten : List Expr → List (List Char) → Prop
  | [], tokens => tokens = []
  | arg :: rest, tokens => ∃ first others, arg.Written first ∧ MoreArgsWritten rest others ∧
      tokens = first ++ others

def MoreArgsWritten : List Expr → List (List Char) → Prop
  | [], tokens => tokens = []
  | arg :: rest, tokens => ∃ first others, arg.Written first ∧ MoreArgsWritten rest others ∧
      tokens = [','] :: (first ++ others)

end

/-- A rule with a message may end with a semicolon. -/
def Clause.Written (clause : Clause) (tokens : List (List Char)) : Prop :=
  match clause.message with
  | none => clause.condition.Written tokens
  | some message => ∃ first second last, clause.condition.Written first ∧ message.Written second ∧
      (last = [] ∨ last = [[';']]) ∧
      tokens = "@:".toList :: (first ++ [';'] :: "msg:".toList :: (second ++ last))

/-! ## Layout -/

/-- The tokens one after another, with any blanks before each of them and at the end. -/
def LaidOut : List (List Char) → List Char → Prop
  | [], text => ∀ c ∈ text, Phrase.isBlank c = true
  | token :: rest, text => ∃ blanks after, (∀ c ∈ blanks, Phrase.isBlank c = true) ∧
      text = blanks ++ (token ++ after) ∧ LaidOut rest after

theorem LaidOut.blanks_append {tokens : List (List Char)} {blanks text : List Char}
    (all_blank : ∀ c ∈ blanks, Phrase.isBlank c = true) (laid : LaidOut tokens text) :
    LaidOut tokens (blanks ++ text) := by
  cases tokens with
  | nil => exact List.forall_mem_append.mpr ⟨all_blank, laid⟩
  | cons token rest =>
    obtain ⟨front, after, front_blank, rfl, laid⟩ := laid
    exact ⟨blanks ++ front, after, List.forall_mem_append.mpr ⟨all_blank, front_blank⟩,
      (List.append_assoc ..).symm, laid⟩

theorem LaidOut.append {first second : List (List Char)} {text text' : List Char}
    (laid : LaidOut first text) (laid' : LaidOut second text') :
    LaidOut (first ++ second) (text ++ text') := by
  induction first generalizing text with
  | nil => exact laid'.blanks_append laid
  | cons token rest ih =>
    obtain ⟨blanks, after, all_blank, rfl, laid⟩ := laid
    exact ⟨blanks, after ++ text', all_blank, by simp only [List.append_assoc], ih laid⟩

/-- A text of tokens is cut where its tokens are. -/
theorem LaidOut.split {first second : List (List Char)} {text : List Char}
    (laid : LaidOut (first ++ second) text) :
    ∃ front back, text = front ++ back ∧ LaidOut first front ∧ LaidOut second back := by
  induction first generalizing text with
  | nil => exact ⟨[], text, rfl, nofun, laid⟩
  | cons token rest ih =>
    obtain ⟨blanks, after, all_blank, rfl, laid⟩ := laid
    obtain ⟨front, back, rfl, laid_front, laid_back⟩ := ih laid
    exact ⟨blanks ++ (token ++ front), back, by simp only [List.append_assoc],
      ⟨blanks, front, all_blank, rfl, laid_front⟩, laid_back⟩

/-- No token is longer than a text that it is laid out in. -/
theorem LaidOut.length_le {tokens : List (List Char)} {text token : List Char}
    (laid : LaidOut tokens text) (listed : token ∈ tokens) : token.length ≤ text.length := by
  induction tokens generalizing text with
  | nil => exact absurd listed List.not_mem_nil
  | cons first rest ih =>
    obtain ⟨blanks, after, -, rfl, laid⟩ := laid
    simp only [List.length_append]
    rcases List.mem_cons.mp listed with rfl | listed
    · omega
    · have shorter := ih laid listed
      omega

theorem laidOut_token (token : List Char) : LaidOut [token] token :=
  ⟨[], [], by simp, by simp, by simp [LaidOut]⟩

theorem exists_numeral (value : Nat) : ∃ digits, IsNumeral value digits := by
  have are_digits (c : Char) (digit : c ∈ Nat.toDigits 10 value) : c.isDigit = true :=
    Nat.isDigit_of_mem_toDigits (by decide) (by decide) digit
  exact ⟨_, Nat.toDigits_ne_nil, are_digits, Nat.ofDigitChars_ten_toDigits⟩

theorem exists_pathStep_written (step : PathStep) : ∃ chars, step.Written chars := by
  cases step with
  | field name => exact ⟨_, rfl⟩
  | index position =>
    obtain ⟨digits, numeral⟩ := exists_numeral position
    exact ⟨_, digits, numeral, rfl⟩

theorem exists_steps_written (steps : List PathStep) : ∃ chars, StepsWritten steps chars := by
  induction steps with
  | nil => exact ⟨[], rfl⟩
  | cons step rest ih =>
    obtain ⟨front, written⟩ := exists_pathStep_written step
    obtain ⟨back, rest_written⟩ := ih
    exact ⟨_, front, back, written, rest_written, rfl⟩

theorem exists_path_written {path : List PathStep} (printable : PathPrintable path) :
    ∃ chars, PathWritten path chars := by
  match path, printable with
  | .field name :: steps, _ =>
    obtain ⟨back, written⟩ := exists_steps_written steps
    exact ⟨_, back, written, rfl⟩

theorem exists_literal_written {value : Literal} (printable : value.Printable) :
    ∃ tokens, value.Written tokens := by
  cases value with
  | nil => exact ⟨_, rfl⟩
  | bool value => exact ⟨_, rfl⟩
  | int value =>
    obtain ⟨digits, numeral⟩ := exists_numeral value.toInt.natAbs
    exact ⟨_, digits, numeral, rfl⟩
  | float value => exact absurd printable id
  | str value => exact ⟨_, '"', .inr rfl, rfl⟩

mutual

theorem exists_written : ∀ {expr : Expr}, expr.Printable → ∃ tokens, expr.Written tokens
  | .literal _, printable => exists_literal_written printable
  | .current, _ => ⟨_, rfl⟩
  | .sibling _, printable => by
    obtain ⟨chars, written⟩ := exists_path_written printable
    exact ⟨_, chars, written, rfl⟩
  | .unary _ _, printable => by
    obtain ⟨inner, written⟩ := exists_written printable.1
    exact ⟨_, inner, written, rfl⟩
  | .arithmetic _ _ _, printable | .comparison _ _ _, printable | .connective _ _ _, printable => by
    obtain ⟨first, left_written⟩ := exists_written printable.1
    obtain ⟨second, right_written⟩ := exists_written printable.2
    exact ⟨_, first, second, left_written, right_written, rfl⟩
  | .call _ args, printable => by
    obtain ⟨inner, written⟩ := exists_args_written printable.2
    exact ⟨_, inner, written, rfl⟩

theorem exists_args_written : ∀ {args : List Expr}, AllPrintable args →
    ∃ tokens, ArgsWritten args tokens
  | [], _ => ⟨_, rfl⟩
  | _ :: _, printable => by
    obtain ⟨first, written⟩ := exists_written printable.1
    obtain ⟨others, rest_written⟩ := exists_moreArgs_written printable.2
    exact ⟨_, first, others, written, rest_written, rfl⟩

theorem exists_moreArgs_written : ∀ {args : List Expr}, AllPrintable args →
    ∃ tokens, MoreArgsWritten args tokens
  | [], _ => ⟨_, rfl⟩
  | _ :: _, printable => by
    obtain ⟨first, written⟩ := exists_written printable.1
    obtain ⟨others, rest_written⟩ := exists_moreArgs_written printable.2
    exact ⟨_, first, others, written, rest_written, rfl⟩

end

theorem exists_clause_written {clause : Clause} (printable : clause.Printable) :
    ∃ tokens, clause.Written tokens := by
  obtain ⟨condition, message⟩ := clause
  obtain ⟨first, written⟩ := exists_written printable.1
  cases message with
  | none => exact ⟨first, written⟩
  | some message =>
    obtain ⟨second, message_written⟩ := exists_written (printable.2 message rfl)
    exact ⟨_, first, second, [], written, message_written, .inl rfl, rfl⟩

end Proviso
