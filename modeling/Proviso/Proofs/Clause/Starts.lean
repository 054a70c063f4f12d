/- # Proviso.Proofs.Clause.Starts -- what the phrases of a clause start with

The grammar of clauses has no left recursion, and each of its phrases starts with one of a few
characters.  Both are read off the forms, phrase by phrase; everything else about the grammar that
is decided by a next character follows from them. -/
import Proviso.Grammar.Clause
import Proviso.Proofs.Grammar.Finding

namespace Proviso

set_option autoImplicit false

namespace Phrase

def mayBeEmpty : Phrase → Bool
  | .endOfInput | .singleQuoted | .doubleQuoted => true
  | _ => false

/-- A phrase ranks above those that it may start with. -/
def rank : Phrase → Nat
  | .clause => 4
  | .expression => 3
  | .primary => 2
  | .binaryOperator | .unaryOperator | .fieldPath | .call | .number => 1
  | _ => 0

theorem empty_of_form (phrase : Phrase) :
    phrase.form.mayBeEmpty mayBeEmpty = true → phrase.mayBeEmpty = true := by
  cases phrase <;> decide

theorem rank_heads (phrase : Phrase) :
    ∀ head ∈ phrase.form.heads mayBeEmpty, head.rank < phrase.rank := by
  cases phrase <;> decide

theorem form_progresses (phrase : Phrase) : phrase.form.progresses mayBeEmpty = true := by
  cases phrase <;> decide

theorem rank_lt (phrase : Phrase) : phrase.rank < grammar.names.length := by
  cases phrase <;> decide

/-- The grammar of clauses has no left recursion. -/
def ranking : grammar.Ranking := ⟨mayBeEmpty, rank, empty_of_form, rank_heads, rank_lt,
  form_progresses⟩

def isOperatorStart (c : Char) : Bool :=
  ['|', '&', '=', '!', '<', '>', '+', '-', '*', '/', '%'].contains c

/-- The characters that operands start with, prefix operators aside. -/
def isPrimaryStart (c : Char) : Bool :=
  isIdentStart c || c.isDigit || ['(', '$', '\'', '"'].contains c

def isPrefixStart (c : Char) : Bool := ['!', '-'].contains c

def isCloser (c : Char) : Bool := [')', ',', ';'].contains c

def starts : Phrase → Char → Bool
  | .endOfInput, _ => false
  | .whitespace, c => isBlank c
  | .clause, c => c == '@' || isPrefixStart c || isPrimaryStart c || isBlank c
  | .extended, c => c == '@'
  | .expression, c => isPrefixStart c || isPrimaryStart c || isBlank c
  | .binaryOperator, c => isOperatorStart c
  | .or, c => c == '|'
  | .and, c => c == '&'
  | .eq, c => c == '='
  | .ne, c | .not, c => c == '!'
  | .le, c | .lt, c => c == '<'
  | .ge, c | .gt, c => c == '>'
  | .add, c => c == '+'
  | .sub, c | .neg, c => c == '-'
  | .mul, c => c == '*'
  | .div, c => c == '/'
  | .rem, c => c == '%'
  | .unaryOperator, c => isPrefixStart c
  | .primary, c => isPrimaryStart c
  | .grouped, c | .sibling, c => c == '('
  | .fieldPath, c | .ident, c | .call, c => isIdentStart c
  | .fieldAccess, c => c == '.'
  | .indexAccess, c => c == '['
  | .current, c => c == '$'
  | .identChar, c => isIdentChar c
  | .nil, c => c == 'n'
  | .boolean, c => c == 't' || c == 'f'
  | .index, c | .number, c | .float, c | .integer, c => c.isDigit
  | .exponent, c => c.toLower == 'e'
  | .string, c => c == '\'' || c == '"'
  | .singleQuoted, _ | .doubleQuoted, _ => true

theorem starts_of_form (phrase : Phrase) (c : Char) :
    phrase.form.mayStart mayBeEmpty starts grammar.blank c = true → phrase.starts c = true := by
  have of_word : c = 'n' ∨ c = 't' ∨ c = 'f' → c.isAlpha = true := by
    rintro (rfl | rfl | rfl) <;> rfl
  cases phrase <;>
    simp only [form, literally, Form.mayStart, Form.seqs, Form.choices, Form.atLeastOnce, digits,
      quotedBody, mayBeEmpty, Form.mayBeEmpty, starts, grammar, List.map_cons, List.map_nil,
      isPrefixStart, isPrimaryStart, isOperatorStart, isIdentStart, Bool.or_eq_true,
      Bool.and_eq_true, List.contains_eq_mem, List.mem_cons, decide_eq_true_eq] <;>
    simp <;> grind

/-- The characters that the phrases of clauses start with. -/
def firsts : grammar.Firsts := ⟨ranking, starts, starts_of_form⟩

/-- Operands start with none of the characters that stand before or between them. -/
theorem primaryStart_apart {c : Char} (starts : isPrimaryStart c = true) :
    isBlank c = false ∧ isPrefixStart c = false ∧ (c == '=') = false ∧ (c == '@') = false := by
  have apart (other : Char) (never : isPrimaryStart other = false) : c ≠ other := by
    rintro rfl
    rw [starts] at never
    cases never
  simp [isBlank, isPrefixStart, apart ' ' rfl, apart '\t' rfl, apart '\r' rfl, apart '\n' rfl,
    apart '!' rfl, apart '-' rfl, apart '=' rfl, apart '@' rfl]

/-- No name starts with a digit. -/
theorem identStart_of_digit {c : Char} (digit : c.isDigit = true) : isIdentStart c = false := by
  have below : c.toNat ≤ 57 := (Char.isDigit_iff_toNat.mp digit).2
  rw [Bool.eq_false_iff]
  intro starts
  rcases Bool.or_eq_true_iff.mp starts with letter | underscore
  · rcases Bool.or_eq_true_iff.mp (show (c.isUpper || c.isLower) = true from letter) with
      upper | lower
    · have above : 65 ≤ c.toNat := UInt32.le_iff_toNat_le.mp (of_decide_eq_true upper).1
      omega
    · have above : 97 ≤ c.toNat := UInt32.le_iff_toNat_le.mp
        (of_decide_eq_true (Bool.and_eq_true_iff.mp lower).1)
      omega
  · rw [beq_iff_eq.mp underscore] at digit
    cases digit

theorem prefixStart_apart {c : Char} (starts : isPrefixStart c = true) :
    isBlank c = false ∧ (c == '=') = false ∧ (c == '@') = false := by
  simp only [isPrefixStart, List.contains_eq_mem, List.mem_cons, List.not_mem_nil, or_false,
    decide_eq_true_eq] at starts
  rcases starts with rfl | rfl <;> decide

theorem operatorStart_apart {c : Char} (starts : isOperatorStart c = true) :
    isBlank c = false ∧ isCloser c = false := by
  have apart (other : Char) (never : isOperatorStart other = false) : c ≠ other := by
    rintro rfl
    rw [starts] at never
    cases never
  simp [isBlank, isCloser, apart ' ' rfl, apart '\t' rfl, apart '\r' rfl, apart '\n' rfl,
    apart ')' rfl, apart ',' rfl, apart ';' rfl]

/-! ## What may follow -/

/-- The characters that may stand right behind an operand. -/
def isBoundary (c : Char) : Bool := isBlank c || isCloser c || isOperatorStart c

/-- Nothing that an operand could go on with is a boundary. -/
theorem boundary_apart {c : Char} (boundary : isBoundary c = true) :
    isIdentChar c = false ∧ c.isDigit = false ∧ (c == '.') = false ∧
      (c.toLower == 'e') = false := by
  simp only [isBoundary, isBlank, isCloser, isOperatorStart, List.contains_eq_mem, List.mem_cons,
    List.not_mem_nil, or_false, Bool.or_eq_true, beq_iff_eq, decide_eq_true_eq] at boundary
  rcases boundary with ((((rfl | rfl) | rfl) | rfl) | (rfl | rfl | rfl)) |
    (rfl | rfl | rfl | rfl | rfl | rfl | rfl | rfl | rfl | rfl | rfl) <;> decide

theorem blank_apart {c : Char} (blank : isBlank c = true) :
    isIdentChar c = false ∧ (c == '=') = false ∧ (c == '.') = false ∧ (c == '[') = false := by
  simp only [isBlank, Bool.or_eq_true, beq_iff_eq] at blank
  rcases blank with ((rfl | rfl) | rfl) | rfl <;> decide

/-- A boundary stands at the place, or nothing. -/
def Bounded (cursor : Cursor) : Prop := ∀ c ∈ cursor.rest.head?, isBoundary c = true

/-- The end of an expression stands at the place, or nothing. -/
def Closed (cursor : Cursor) : Prop := ∀ c ∈ cursor.rest.head?, isCloser c = true

/-- An operator or the end of an expression stands at the place, or nothing. -/
def Continued (cursor : Cursor) : Prop :=
  ∀ c ∈ cursor.rest.head?, isCloser c = true ∨ isOperatorStart c = true

theorem Closed.continued {cursor : Cursor} (closed : Closed cursor) : Continued cursor :=
  fun c here => .inl (closed c here)

/-- An operand that is followed by an operator or the end of an expression, blanks aside, ends at a
boundary. -/
theorem Continued.bounded {context : Context} {cursor : Cursor}
    (continued : Continued (grammar.skipBlanks context cursor)) : Bounded cursor := by
  intro c here
  by_cases blank : isBlank c = true
  · simp [isBoundary, blank]
  · have bare : cursor.Lacks grammar.blank :=
      Cursor.lacks_of_head here (Bool.eq_false_iff.mpr blank)
    rw [Grammar.skipBlanks_of_lacks context bare] at continued
    rcases continued c here with closer | operator
    · simp [isBoundary, closer]
    · simp [isBoundary, operator]

theorem Bounded.lacks {cursor : Cursor} {kind : Char → Bool} (bounded : Bounded cursor)
    (apart : ∀ c, isBoundary c = true → kind c = false) : cursor.Lacks kind :=
  fun c here => apart c (bounded c here)

end Phrase

end Proviso
