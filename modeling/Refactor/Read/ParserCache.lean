import Refactor.Language
import Refactor.Number.Binary64

/-!
# The cache of parsers

One parser per language is made when it is first asked for, and kept. Asking takes two steps,
each of which sees and changes the cache at once: a look-up, and, if that finds nothing, a second
look with the making of a parser. Between the two steps somebody else may have made one.

Parsers are told apart by a number, which counts how many were made before.
-/

namespace Refactor.Read

/-- The parsers at hand, and what the cache was asked for. -/
structure ParserCache where
  parsers : List (Language × Nat) := []
  hits : Nat := 0
  misses : Nat := 0
  creates : Nat := 0

namespace ParserCache

/-- The number of parsers at hand. -/
def size (cache : ParserCache) : Nat :=
  cache.parsers.length

/-- The parser of a language, if it is at hand. -/
def parser? (cache : ParserCache) (language : Language) : Option Nat :=
  cache.parsers.lookup language

/-- The first step: a look-up, which counts if it finds a parser. -/
def lookUp (cache : ParserCache) (language : Language) : Option Nat × ParserCache :=
  match cache.parser? language with
  | some parser => (some parser, { cache with hits := cache.hits + 1 })
  | none => (none, cache)

/-- The second step: another look, and a new parser if there still is none. -/
def obtain (cache : ParserCache) (language : Language) : Nat × ParserCache :=
  match cache.parser? language with
  | some parser => (parser, { cache with hits := cache.hits + 1 })
  | none =>
    (cache.creates,
      { parsers := (language, cache.creates) :: cache.parsers
        hits := cache.hits
        misses := cache.misses + 1
        creates := cache.creates + 1 })

/-- Both steps in a row. -/
def request (cache : ParserCache) (language : Language) : Nat × ParserCache :=
  match cache.lookUp language with
  | (some parser, cache) => (parser, cache)
  | (none, cache) => cache.obtain language

/-- Lets go of all parsers. What was counted stays. -/
def clear (cache : ParserCache) : ParserCache :=
  { cache with parsers := [] }

/-- The share of requests that found a parser. -/
def hitRate (cache : ParserCache) : Binary64 :=
  let total := cache.hits + cache.misses
  if total = 0 then .zero else .ofRatio cache.hits total

end ParserCache

end Refactor.Read
