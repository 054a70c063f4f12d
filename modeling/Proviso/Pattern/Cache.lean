/- # Proviso.Pattern.Cache -- patterns compiled once

Compiling a pattern is remembered, so that a text that is used again is not compiled again.  The
cache is bounded: once it is full, texts that are not in it are compiled each time, and nothing is
ever dropped.  That every entry is what its text is compiled to is part of the type, so an answer
never depends on what is in the cache. -/
import Proviso.Pattern.Library

namespace Proviso

set_option autoImplicit false

open PatternLibrary

variable [PatternLibrary]

structure CompiledPattern where
  text : String
  pattern : Compiled
  is_compiled : compile? text = some pattern

def patternCacheLimit : Nat := 256

structure PatternCache where
  entries : List CompiledPattern
  bounded : entries.length ≤ patternCacheLimit

namespace PatternCache

def empty : PatternCache := ⟨[], Nat.zero_le _⟩

def find? (cache : PatternCache) (text : String) : Option Compiled :=
  (cache.entries.find? (·.text == text)).map (·.pattern)

/-- The cache with one more entry, if there is room. -/
def insert (cache : PatternCache) (entry : CompiledPattern) : PatternCache :=
  if h : cache.entries.length < patternCacheLimit then
    ⟨cache.entries ++ [entry], by simp only [List.length_append, List.length_singleton]; omega⟩
  else cache

/-- The pattern of a text, and the cache afterwards.  Texts that are no pattern are not kept. -/
def get (cache : PatternCache) (text : String) : Option Compiled × PatternCache :=
  match cache.find? text with
  | some pattern => (some pattern, cache)
  | none =>
    match h : compile? text with
    | some pattern => (some pattern, cache.insert ⟨text, pattern, h⟩)
    | none => (none, cache)

end PatternCache

end Proviso
