/- # Proviso.Proofs.Function.Reply -- a reply depends on the arguments alone

A call is handed the patterns compiled so far and hands them on.  What it answers does not depend on
them: a remembered pattern is what its text is compiled to, so the reply is a function of the
arguments. -/
import Proviso.Function.Basic

namespace Proviso

set_option autoImplicit false

open PatternLibrary

variable [PatternLibrary]

namespace PatternCache

/-- What is remembered under a text is what the text is compiled to. -/
theorem compile?_of_find? {cache : PatternCache} {text : String} {pattern : Compiled}
    (found : cache.find? text = some pattern) : compile? text = some pattern := by
  obtain ⟨entry, at_hand, rfl⟩ := Option.map_eq_some_iff.mp found
  have named : entry.text = text := by simpa using List.find?_some at_hand
  rw [← named, entry.is_compiled]

/-- The cache answers as compiling afresh would. -/
theorem get_fst (cache : PatternCache) (text : String) :
    (cache.get text).1 = compile? text := by
  unfold get
  split
  · rename_i pattern found
    exact (compile?_of_find? found).symm
  · split
    · rename_i pattern compiled
      exact compiled.symm
    · rename_i refused
      exact refused.symm

end PatternCache

namespace Function

theorem matchPattern_fst (args : List Datum) (patterns others : PatternCache) :
    (matchPattern args patterns).1 = (matchPattern args others).1 := by
  unfold matchPattern
  split
  · rfl
  · rename_i text rest
    have same : (patterns.get text).1 = (others.get text).1 := by
      rw [patterns.get_fst, others.get_fst]
    cases mine : patterns.get text with
    | mk pattern after =>
      cases theirs : others.get text with
      | mk pattern' after' =>
        rw [mine, theirs] at same
        cases same
        cases pattern with
        | none => rfl
        | some pattern =>
          cases rest with
          | nil => rfl
          | cons first rest => cases first <;> rfl
  · rfl

def reply (function : Function) (args : List Datum) : Reply := (function.call args .empty).1

theorem call_fst (function : Function) (args : List Datum) (patterns : PatternCache) :
    (function.call args patterns).1 = function.reply args := by
  unfold reply call
  cases function.behaviour with
  | predicate judge => rfl
  | value compute => rfl
  | matching =>
    show Reply.computed ((matchPattern args patterns).1.mapError _) =
      Reply.computed ((matchPattern args .empty).1.mapError _)
    rw [matchPattern_fst args patterns .empty]

end Function

end Proviso
