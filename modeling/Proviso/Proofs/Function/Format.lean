/- # Proviso.Proofs.Function.Format -- formats one after the other

A format is filled from the left, and each of its directives but `%%` takes one argument, whether or
not the verb is known and the argument fits it.  So a format that does not end within a directive
takes as many arguments as it has verbs: what is written behind it is filled with the arguments that
are left, as if it stood alone (`formatText_append`).  A format ends within a directive exactly if
the percent signs at its end are odd in number (`endsInDirective_iff`), so a text whose percent
signs are all written twice never does, and comes out as it was (`formatText_doubled`). -/
import Mathlib.Data.List.DropRight
import Proviso.Function.Text
import Proviso.Pattern.OfText
import Proviso.Proofs.Function.Reply

namespace Proviso

set_option autoImplicit false

/-! ## Directives -/

/-- The verbs of the directives that take an argument. -/
def formatVerbs : List Char → List Char
  | [] | ['%'] => []
  | '%' :: '%' :: rest => formatVerbs rest
  | '%' :: verb :: rest => verb :: formatVerbs rest
  | _ :: rest => formatVerbs rest

/-- Whether a format ends with a percent sign that no verb follows. -/
def endsInDirective : List Char → Bool
  | [] => false
  | ['%'] => true
  | '%' :: _ :: rest => endsInDirective rest
  | _ :: rest => endsInDirective rest

/-- Formats by what stands at their front. -/
@[elab_as_elim]
theorem format_induction {motive : List Char → Prop} (nil : motive []) (dangling : motive ['%'])
    (percent : ∀ rest, motive rest → motive ('%' :: '%' :: rest))
    (directive : ∀ verb rest, verb ≠ '%' → motive rest → motive ('%' :: verb :: rest))
    (plain : ∀ c rest, c ≠ '%' → motive rest → motive (c :: rest)) (format : List Char) :
    motive format := by
  fun_induction formatVerbs format with
  | case1 => exact nil
  | case2 => exact dangling
  | case3 rest ih => exact percent rest ih
  | case4 verb rest other ih => exact directive verb rest other ih
  | case5 c rest not_alone _ not_first ih =>
    refine plain c rest ?_ ih
    rintro rfl
    cases rest with
    | nil => exact not_alone rfl rfl
    | cons verb rest => exact not_first verb rest rfl rfl

variable {c verb : Char}

theorem formatVerbs_directive (other : verb ≠ '%') (rest : List Char) :
    formatVerbs ('%' :: verb :: rest) = verb :: formatVerbs rest := by
  rw [formatVerbs]
  exact other

theorem formatVerbs_plain (plain : c ≠ '%') (rest : List Char) :
    formatVerbs (c :: rest) = formatVerbs rest := by
  rw [formatVerbs.eq_def]
  split <;> grind

theorem endsInDirective_plain (plain : c ≠ '%') (rest : List Char) :
    endsInDirective (c :: rest) = endsInDirective rest := by
  rw [endsInDirective.eq_def]
  split <;> grind

/-- How many percent signs stand at the end of a text. -/
def percentsAtEnd (text : List Char) : Nat := (text.rtakeWhile (· == '%')).length

theorem percentsAtEnd_le (text : List Char) : percentsAtEnd text ≤ text.length :=
  (List.rtakeWhile_suffix _ text).length_le

theorem percentsAtEnd_cons (c : Char) (rest : List Char) :
    percentsAtEnd (c :: rest) = if percentsAtEnd rest = rest.length ∧ c = '%' then rest.length + 1
      else percentsAtEnd rest := by
  have reversed (text : List Char) :
      percentsAtEnd text = (text.reverse.takeWhile (· == '%')).length := by
    rw [percentsAtEnd, List.rtakeWhile, List.length_reverse]
  rw [reversed, reversed, List.reverse_cons, List.takeWhile_append, List.length_reverse]
  by_cases all : (rest.reverse.takeWhile (· == '%')).length = rest.length
  · by_cases percent : c = '%'
    · simp [all, percent]
    · simp [all, percent]
  · simp [all]

theorem percentsAtEnd_plain (plain : c ≠ '%') (rest : List Char) :
    percentsAtEnd (c :: rest) = percentsAtEnd rest := by
  rw [percentsAtEnd_cons, if_neg fun all => plain all.2]

/-- A format ends within a directive if the percent signs at its end are odd in number. -/
theorem endsInDirective_iff (format : List Char) :
    endsInDirective format = true ↔ percentsAtEnd format % 2 = 1 := by
  induction format using format_induction with
  | nil => decide
  | dangling => decide
  | percent rest ih =>
    have bound := percentsAtEnd_le rest
    rw [endsInDirective, ih, percentsAtEnd_cons, percentsAtEnd_cons '%', List.length_cons]
    by_cases all : percentsAtEnd rest = rest.length ∧ '%' = '%'
    · rw [if_pos all, if_pos ⟨rfl, rfl⟩, all.1]
      omega
    · rw [if_neg all, if_neg (by omega)]
  | directive verb rest other ih =>
    have bound := percentsAtEnd_le rest
    rw [endsInDirective, ih, percentsAtEnd_cons, percentsAtEnd_plain other, List.length_cons,
      if_neg (by omega)]
  | plain c rest plain ih => rw [endsInDirective_plain plain, ih, percentsAtEnd_plain plain]

/-! ## Filling a format -/

theorem formatText_plain (plain : c ≠ '%') (rest : List Char) (args : List Datum) :
    formatText (c :: rest) args = c :: formatText rest args := by
  rw [formatText.eq_def]
  split <;> grind

theorem formatText_missing (other : verb ≠ '%') (rest : List Char) :
    formatText ('%' :: verb :: rest) [] =
      '%' :: '!' :: verb :: ("(MISSING)".toList ++ formatText rest []) := by
  rw [formatText.eq_def]
  split <;> grind

theorem formatText_directive (other : verb ≠ '%') (rest : List Char) (arg : Datum)
    (args : List Datum) : formatText ('%' :: verb :: rest) (arg :: args) =
      formatDirective verb arg ++ formatText rest args := by
  rw [formatText.eq_def]
  split <;> grind

/-- **What is written behind a format is filled with the arguments that are left.** -/
theorem formatText_append {format : List Char} (complete : endsInDirective format = false)
    (rest : List Char) (args : List Datum) :
    formatText (format ++ rest) args =
      formatText format args ++ formatText rest (args.drop (formatVerbs format).length) := by
  induction format using format_induction generalizing args with
  | nil => rfl
  | dangling => cases complete
  | percent format ih => exact congrArg ('%' :: ·) (ih complete args)
  | directive verb format other ih =>
    rw [List.cons_append, List.cons_append, formatVerbs_directive other]
    cases args with
    | nil =>
      rw [formatText_missing other, formatText_missing other, ih complete, List.drop_nil,
        List.drop_nil]
      simp only [List.cons_append, List.append_assoc]
    | cons arg args =>
      rw [formatText_directive other, formatText_directive other, ih complete, List.append_assoc,
        List.length_cons, List.drop_succ_cons]
  | plain c format plain ih =>
    rw [endsInDirective_plain plain] at complete
    rw [List.cons_append, formatText_plain plain, formatText_plain plain, formatVerbs_plain plain,
      ih complete, List.cons_append]

/-- Arguments behind those that the verbs take do not show. -/
theorem formatText_spare (format : List Char) {args : List Datum}
    (enough : (formatVerbs format).length ≤ args.length) (spare : List Datum) :
    formatText format (args ++ spare) = formatText format args := by
  induction format using format_induction generalizing args with
  | nil => rfl
  | dangling => rfl
  | percent format ih => exact congrArg ('%' :: ·) (ih enough)
  | directive verb format other ih =>
    rw [formatVerbs_directive other, List.length_cons] at enough
    cases args with
    | nil => cases enough
    | cons arg args =>
      rw [List.cons_append, formatText_directive other, formatText_directive other,
        ih (Nat.le_of_succ_le_succ enough)]
  | plain c format plain ih =>
    rw [formatVerbs_plain plain] at enough
    rw [formatText_plain plain, formatText_plain plain, ih enough]

/-- How a text is written in a format so that no percent sign in it starts a directive. -/
def doublePercents (text : List Char) : List Char :=
  text.flatMap fun c => if c = '%' then ['%', '%'] else [c]

/-- **A text whose percent signs are written twice comes out as it was.** -/
theorem formatText_doubled (text : List Char) (args : List Datum) :
    formatText (doublePercents text) args = text := by
  induction text with
  | nil => rfl
  | cons c rest ih =>
    by_cases percent : c = '%'
    · subst percent
      exact congrArg ('%' :: ·) ih
    · have kept : doublePercents (c :: rest) = c :: doublePercents rest := by
        simp [doublePercents, percent]
      rw [kept, formatText_plain percent, ih]

namespace Function

section

variable [PatternLibrary]

/-- The reply is that the format with the arguments filled in is the given text. -/
def Formats (format : String) (args : List Datum) (text : String) : Prop :=
  sprintf.reply (.str format :: args) = .computed (.ok (.str text))

theorem formats_iff {format : String} {args : List Datum} {text : String} :
    Formats format args text ↔ text.toList = formatText format.toList args := by
  have replied : sprintf.reply (.str format :: args) =
      .computed (.ok (.str (String.ofList (formatText format.toList args)))) := rfl
  rw [Formats, replied]
  constructor
  · intro same
    cases same
    exact String.toList_ofList
  · intro same
    rw [← same, String.ofList_toList]

theorem Formats.unique {format : String} {args : List Datum} {text other : String}
    (one : Formats format args text) (another : Formats format args other) : text = other :=
  String.toList_injective ((formats_iff.mp one).trans (formats_iff.mp another).symm)

/-- **Formats one after the other are filled one after the other.**  Where no percent sign is left
over at the end of a format and there is one argument for each of its verbs, a format behind it is
filled with the further arguments, and the texts of the two stand one behind the other.  A text
whose percent signs are written twice comes out as it was, whatever the arguments. -/
theorem sprintf_compositional :
    (∀ (front back : String) (given further : List Datum),
      percentsAtEnd front.toList % 2 = 0 → (formatVerbs front.toList).length = given.length →
      ∃ text text', Formats front given text ∧ Formats back further text' ∧
        Formats (front ++ back) (given ++ further) (text ++ text')) ∧
    ∀ (text : String) (args : List Datum),
      Formats (String.ofList (doublePercents text.toList)) args text := by
  constructor
  · intro front back given further paired one_each
    have complete : endsInDirective front.toList = false :=
      Bool.eq_false_iff.mpr fun ends => by
        have odd := (endsInDirective_iff front.toList).mp ends
        omega
    refine ⟨String.ofList (formatText front.toList given),
      String.ofList (formatText back.toList further), ?_, ?_, ?_⟩
    · exact formats_iff.mpr String.toList_ofList
    · exact formats_iff.mpr String.toList_ofList
    · rw [formats_iff, String.toList_append, String.toList_append, String.toList_ofList,
        String.toList_ofList, formatText_append complete, one_each, List.drop_left,
        formatText_spare front.toList one_each.le]
  · intro text args
    rw [formats_iff, String.toList_ofList, formatText_doubled]

end

section

attribute [local instance] Pattern.library

/-- An argument that does not fit and one that is missing leave the other directives in place. -/
theorem sprintf_compositional_unfit :
    Formats "%d%% of %f, " [.int 50, .str "two"] "50% of %!f(two), " ∧
      Formats "%q %s" [.str "a"] "\"a\" %!s(MISSING)" ∧
      Formats ("%d%% of %f, " ++ "%q %s") ([.int 50, .str "two"] ++ [.str "a"])
        ("50% of %!f(two), " ++ "\"a\" %!s(MISSING)") := by
  have front : Formats "%d%% of %f, " [.int 50, .str "two"] "50% of %!f(two), " := by
    rw [formats_iff]
    decide +kernel
  have back : Formats "%q %s" [.str "a"] "\"a\" %!s(MISSING)" := by
    rw [formats_iff]
    decide +kernel
  obtain ⟨text, text', front_text, back_text, both⟩ := sprintf_compositional.1 "%d%% of %f, "
    "%q %s" [.int 50, .str "two"] [.str "a"] (by decide) (by decide)
  rw [front_text.unique front, back_text.unique back] at both
  exact ⟨front, back, both⟩

end

end Function

end Proviso
