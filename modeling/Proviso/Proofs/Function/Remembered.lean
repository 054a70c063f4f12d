/- # Proviso.Proofs.Function.Remembered -- what is remembered of the patterns that were matched

Calls of `regexp` are handed the patterns compiled so far, one call after another.  What the cache
holds is a function of the calls before: the texts that are patterns, each where it was first used, up
to the limit (`texts_afterCalls`).  So a text that is no pattern is never kept, and what is kept stays
as it is: later calls only add to it, behind what is there.  Each call answers as if its pattern had
been compiled afresh.  Which texts are patterns, and what they match, is up to the library. -/
import Mathlib.Data.List.Induction
import Proviso.Function.Text
import Proviso.Pattern.OfText
import Proviso.Proofs.Function.Reply

namespace Proviso

set_option autoImplicit false

open PatternLibrary

/-! ## First uses -/

section FirstUses

variable {α : Type} [BEq α] [LawfulBEq α]

theorem eraseDups_concat (uses : List α) (value : α) :
    (uses ++ [value]).eraseDups =
      uses.eraseDups ++ if value ∈ uses then [] else [value] := by
  rw [List.eraseDups_append]
  split <;> simp_all [List.removeAll, List.eraseDups_cons]

theorem nodup_eraseDups (uses : List α) : uses.eraseDups.Nodup := by
  induction uses using List.reverseRecOn with
  | nil => exact List.nodup_nil
  | append_singleton uses value ih =>
    rw [eraseDups_concat]
    split
    · rwa [List.append_nil]
    · refine List.nodup_append.mpr ⟨ih, by simp, ?_⟩
      rintro other listed _ single rfl
      rw [List.mem_singleton] at single
      exact absurd (single ▸ List.mem_eraseDups.mp listed) ‹_›

/-- One more use of a value adds it to the first uses, if it is new and there is room. -/
theorem take_eraseDups_concat (limit : Nat) (uses : List α) (value : α) :
    (uses ++ [value]).eraseDups.take limit =
      let kept := uses.eraseDups.take limit
      if value ∈ kept ∨ limit ≤ kept.length then kept else kept ++ [value] := by
  dsimp only
  by_cases room : uses.eraseDups.length < limit
  · have all_kept : uses.eraseDups.take limit = uses.eraseDups :=
      List.take_of_length_le (Nat.le_of_lt room)
    rw [all_kept, eraseDups_concat]
    by_cases used : value ∈ uses
    · simp [used, all_kept]
    · have fits : (uses.eraseDups ++ [value]).length ≤ limit := by
        rw [List.length_append, List.length_singleton]
        omega
      rw [if_neg used, List.take_of_length_le fits, if_neg]
      simp [used, room]
  · have full : limit ≤ (uses.eraseDups.take limit).length := by
      rw [List.length_take]
      omega
    rw [if_pos (.inr full), eraseDups_concat, List.take_append_of_le_length (by omega)]

end FirstUses

section

variable [PatternLibrary]

namespace PatternCache

def texts (cache : PatternCache) : List String := cache.entries.map (·.text)

theorem length_texts_le (cache : PatternCache) : cache.texts.length ≤ patternCacheLimit := by
  rw [texts, List.length_map]
  exact cache.bounded

/-- Under a text that is remembered stands what it is compiled to, under others nothing. -/
theorem find?_eq (cache : PatternCache) (text : String) :
    cache.find? text = if text ∈ cache.texts then compile? text else none := by
  cases found : cache.find? text with
  | some pattern =>
    obtain ⟨entry, at_hand, -⟩ := Option.map_eq_some_iff.mp found
    have named : entry.text = text := by simpa using List.find?_some at_hand
    have listed : text ∈ cache.texts :=
      List.mem_map.mpr ⟨entry, List.mem_of_find?_eq_some at_hand, named⟩
    rw [if_pos listed, compile?_of_find? found]
  | none =>
    have absent := List.find?_eq_none.mp (Option.map_eq_none_iff.mp found)
    have unlisted : text ∉ cache.texts := by
      intro listed
      obtain ⟨entry, stored, named⟩ := List.mem_map.mp listed
      exact absent entry stored (beq_iff_eq.mpr named)
    rw [if_neg unlisted]

/-- A text is added when it is a pattern, is new, and there is room. -/
theorem entries_get (cache : PatternCache) (text : String) :
    ((cache.get text).2 = cache ∧
        (compile? text = none ∨ text ∈ cache.texts ∨
          patternCacheLimit ≤ cache.texts.length)) ∨
      ∃ entry : CompiledPattern, entry.text = text ∧ text ∉ cache.texts ∧
        cache.texts.length < patternCacheLimit ∧
        (cache.get text).2.entries = cache.entries ++ [entry] := by
  have looked := cache.find?_eq text
  unfold get
  split
  · rename_i pattern found
    rw [found] at looked
    have listed : text ∈ cache.texts := by
      by_contra unlisted
      rw [if_neg unlisted] at looked
      cases looked
    exact .inl ⟨rfl, .inr (.inl listed)⟩
  · rename_i nothing
    split
    · rename_i pattern read
      by_cases room : cache.texts.length < patternCacheLimit
      · have unlisted : text ∉ cache.texts := by
          intro listed
          rw [nothing, if_pos listed, read] at looked
          cases looked
        refine .inr ⟨⟨text, pattern, read⟩, rfl, unlisted, room, ?_⟩
        rw [texts, List.length_map] at room
        simp only [insert, dif_pos room]
      · have full := room
        rw [texts, List.length_map] at full
        refine .inl ⟨?_, .inr (.inr (Nat.not_lt.mp room))⟩
        simp only [insert, dif_neg full]
    · rename_i unread
      exact .inl ⟨rfl, .inl unread⟩

end PatternCache

/-! ## Calls -/

/-- What matching answers when its pattern is compiled afresh. -/
def matchAfresh : List Datum → Except FunctionFault Datum
  | [] => .error (.missingArgument 0)
  | .str pattern :: rest =>
    match compile? pattern, rest with
    | none, _ => .error .invalidPattern
    | some _, [] => .error (.missingArgument 1)
    | some pattern, .str text :: _ => .ok (.bool (isMatch pattern text))
    | some _, _ :: _ => .ok (.bool false)
  | _ :: _ => .error .patternNotText

def patternText? : List Datum → Option String
  | .str text :: _ => some text
  | _ => none

/-- The pattern that a call uses, by its text, if it is one. -/
def usedPattern? (args : List Datum) : Option String :=
  (patternText? args).filter fun text => (compile? text).isSome

/-- Matching answers as with the pattern compiled afresh, and looks up its pattern. -/
theorem matchPattern_eq (args : List Datum) (cache : PatternCache) :
    Function.matchPattern args cache =
      (matchAfresh args, ((patternText? args).map fun text => (cache.get text).2).getD cache) := by
  unfold Function.matchPattern matchAfresh
  split
  · rfl
  · rename_i text rest
    have read := cache.get_fst text
    cases got : cache.get text with
    | mk pattern after =>
      rw [got] at read
      subst read
      simp only [patternText?, Option.map_some, Option.getD_some, got]
      cases compile? text with
      | none => rfl
      | some pattern =>
        cases rest with
        | nil => rfl
        | cons first rest => cases first <;> rfl
  · rename_i first rest no_text
    cases first with
    | str text => exact absurd rfl (no_text text)
    | _ => rfl

namespace PatternCache

/-- The cache after calls of `regexp`, one after another. -/
def afterCalls (cache : PatternCache) (calls : List (List Datum)) : PatternCache :=
  calls.foldl (fun cache args => (Function.regexp.call args cache).2) cache

/-- A call keeps what is remembered, and may add the pattern that it uses. -/
theorem entries_call (cache : PatternCache) (args : List Datum) :
    cache.entries <+: (Function.regexp.call args cache).2.entries ∧
      (Function.regexp.call args cache).2.texts =
        match usedPattern? args with
        | none => cache.texts
        | some text =>
          if text ∈ cache.texts ∨ patternCacheLimit ≤ cache.texts.length then cache.texts
          else cache.texts ++ [text] := by
  have after : (Function.regexp.call args cache).2 =
      ((patternText? args).map fun text => (cache.get text).2).getD cache := by
    show (Function.matchPattern args cache).2 = _
    rw [matchPattern_eq]
  rw [after, usedPattern?]
  cases patternText? args with
  | none => exact ⟨List.prefix_refl _, rfl⟩
  | some text =>
    rw [Option.map_some, Option.getD_some]
    rcases cache.entries_get text with ⟨same, why⟩ | ⟨entry, rfl, unlisted, room, longer⟩
    · rw [same]
      refine ⟨List.prefix_refl _, ?_⟩
      rcases why with unread | listed | full
      · simp [Option.filter, unread]
      · have read := cache.find?_eq text
        cases is_pattern : (compile? text).isSome <;> simp [Option.filter, is_pattern, listed]
      · cases is_pattern : (compile? text).isSome <;> simp [Option.filter, is_pattern, full]
    · have is_pattern : (compile? entry.text).isSome = true := by
        rw [entry.is_compiled]
        rfl
      refine ⟨⟨[entry], longer.symm⟩, ?_⟩
      rw [Option.filter_some, if_pos is_pattern, texts, longer, List.map_append]
      exact (if_neg (not_or.mpr ⟨unlisted, Nat.not_le.mpr room⟩)).symm

/-- Calls only add to what is remembered, behind what is there. -/
theorem entries_afterCalls (cache : PatternCache) (calls : List (List Datum)) :
    cache.entries <+: (cache.afterCalls calls).entries := by
  induction calls generalizing cache with
  | nil => exact List.prefix_refl _
  | cons args rest ih => exact (cache.entries_call args).1.trans (ih _)

/-- What is remembered after calls are the patterns that they used, in the order of their first use,
up to the limit. -/
theorem texts_afterCalls (calls : List (List Datum)) :
    (empty.afterCalls calls).texts =
      (calls.filterMap usedPattern?).eraseDups.take patternCacheLimit := by
  induction calls using List.reverseRecOn with
  | nil => rfl
  | append_singleton calls args ih =>
    have last : empty.afterCalls (calls ++ [args]) =
        (Function.regexp.call args (empty.afterCalls calls)).2 := by
      rw [afterCalls, List.foldl_append]
      rfl
    rw [last, ((empty.afterCalls calls).entries_call args).2, ih, List.filterMap_append]
    cases used : usedPattern? args with
    | none => simp [used]
    | some text =>
      rw [List.filterMap_cons_some used, List.filterMap_nil, take_eraseDups_concat]

end PatternCache

/-- **The cache of patterns shows in no answer.**  Take any calls of `regexp`, one after another from
the empty cache, and one more call.  It answers as matching with its pattern compiled afresh.  The
texts that are remembered then are those of the patterns that the calls used, in the order of their
first use, up to the limit: so no text is remembered twice or without being a pattern, and there are
at most 256.  Under each of them stands what it is compiled to.  And all of this stays as it is,
whatever calls follow. -/
theorem Function.regexp_answers_afresh (calls : List (List Datum)) (args : List Datum) :
    let cache := PatternCache.empty.afterCalls calls
    (regexp.call args cache).1 =
        .computed ((matchAfresh args).mapError (.function "regexp")) ∧
      cache.texts = (calls.filterMap usedPattern?).eraseDups.take 256 ∧
      cache.texts.Nodup ∧ cache.texts.length ≤ 256 ∧
      (∀ text ∈ cache.texts, ∃ pattern, compile? text = some pattern ∧
        cache.find? text = some pattern) ∧
      (∀ entry ∈ cache.entries, compile? entry.text = some entry.pattern) ∧
      ∀ more, cache.entries <+: (cache.afterCalls more).entries ∧
        ∀ text ∈ cache.texts, (cache.afterCalls more).find? text = cache.find? text := by
  intro cache
  have texts_eq : cache.texts = (calls.filterMap usedPattern?).eraseDups.take 256 :=
    PatternCache.texts_afterCalls calls
  have found (cache : PatternCache) {text : String} (listed : text ∈ cache.texts) :
      cache.find? text = compile? text := by
    rw [cache.find?_eq, if_pos listed]
  refine ⟨?_, texts_eq, ?_, cache.length_texts_le, ?_, fun entry _ => entry.is_compiled, ?_⟩
  · show Reply.computed ((matchPattern args cache).1.mapError _) = _
    rw [matchPattern_eq]
    rfl
  · rw [texts_eq]
    exact (nodup_eraseDups _).sublist (List.take_sublist _ _)
  · intro text listed
    obtain ⟨entry, -, rfl⟩ := List.mem_map.mp listed
    exact ⟨entry.pattern, entry.is_compiled, (found cache listed).trans entry.is_compiled⟩
  · intro more
    have kept := cache.entries_afterCalls more
    refine ⟨kept, fun text listed => ?_⟩
    have still_listed : text ∈ (cache.afterCalls more).texts := (kept.map _).subset listed
    rw [found cache listed, found _ still_listed]

end

attribute [local instance] Pattern.library

/-- Calls with two patterns, one of them twice, and with a text that is none. -/
def someMatches : List (List Datum) :=
  [[.str "a+", .str "b"], [.str "(", .str "b"], [.str "[b]", .int 1], [.str "a+", .str "a"]]

theorem Function.regexp_answers_afresh_someMatches :
    let cache := PatternCache.empty.afterCalls someMatches
    cache.texts = ["a+", "[b]"] ∧
      (regexp.call [.str "(", .str "a"] cache).1 =
        .computed (.error (.function "regexp" .invalidPattern)) ∧
      ∀ more, (cache.afterCalls more).find? "a+" = cache.find? "a+" := by
  obtain ⟨answer, texts, -, -, -, -, stays⟩ :=
    regexp_answers_afresh someMatches [.str "(", .str "a"]
  have used : (someMatches.filterMap usedPattern?).eraseDups.take 256 = ["a+", "[b]"] := by
    decide +kernel
  have unread : matchAfresh [.str "(", .str "a"] = .error .invalidPattern := by decide +kernel
  rw [used] at texts
  exact ⟨texts, answer.trans (by rw [unread]; rfl),
    fun more => (stays more).2 "a+" (texts ▸ List.mem_cons_self)⟩

end Proviso
