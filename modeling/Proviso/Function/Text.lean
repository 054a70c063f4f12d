/- # Proviso.Function.Text -- lengths and formatted text

`len` and `mblen` give the length of a text in bytes and in characters, and of a collection in
items; nothing has length zero.  `sprintf` fills arguments into a format, one for each directive. -/
import Proviso.Function.Basic

namespace Proviso

set_option autoImplicit false

/-! ## Lengths -/

/-- A count as a datum; counts past the largest number are that number. -/
def Datum.count (n : Nat) : Datum := .int (Int64.ofNat (min n 0x7fffffffffffffff))

/-- The length of the first argument, where that of a text is given by `textLength`. -/
def lengthOf (textLength : String → Nat) : List Datum → Except FunctionFault Datum
  | [] => .error (.missingArgument 0)
  | .str text :: _ => .ok (.count (textLength text))
  | .sequence _ length :: _ | .map _ length :: _ => .ok (.count length)
  | .nil :: _ => .ok (.count 0)
  | other :: _ => .error (.unsupportedArgument other.kind)

/-! ## Formatted text -/

def formatDirective (verb : Char) (arg : Datum) : List Char :=
  let unfit (verb : Char) := '%' :: '!' :: verb :: '(' :: (arg.display.toList ++ [')'])
  match verb with
  | 'v' | 's' | 'd' => arg.display.toList
  | 'f' =>
    match arg.number? with
    | some number => (number.fixed 6).toList
    | none => unfit 'f'
  | 'q' => (quoted arg.display).toList
  | verb => unfit verb

/-- A format with its directives filled in.  A directive is `%` and a verb and takes one argument,
but for `%%`, which stands for a percent sign. -/
def formatText : List Char → List Datum → List Char
  | [], _ => []
  | ['%'], _ => "%!(NOVERB)".toList
  | '%' :: '%' :: rest, args => '%' :: formatText rest args
  | '%' :: verb :: rest, [] => '%' :: '!' :: verb :: ("(MISSING)".toList ++ formatText rest [])
  | '%' :: verb :: rest, arg :: args => formatDirective verb arg ++ formatText rest args
  | c :: rest, args => c :: formatText rest args

def sprintf : List Datum → Except FunctionFault Datum
  | [] => .error (.missingArgument 0)
  | .str format :: args => .ok (.str (String.ofList (formatText format.toList args)))
  | _ :: _ => .error .formatNotText

namespace Function

def len : Function := ⟨"len", 1, some 1, .value (lengthOf String.utf8ByteSize), false⟩

def mblen : Function := ⟨"mblen", 1, some 1, .value (lengthOf String.length), false⟩

def regexp : Function := ⟨"regexp", 2, some 2, .matching, false⟩

def sprintf : Function := ⟨"sprintf", 1, none, .value Proviso.sprintf, false⟩

end Function

end Proviso
