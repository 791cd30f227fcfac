import Refactor.Pattern.CharSet

/-!
# Patterns

A pattern describes texts: characters of sets, one after the other, alternatives and repetitions,
and conditions on where in a text a match may begin or end.

- `Pattern.ends`: where the matches that begin at a place end.
- `Pattern.isIn`: whether a pattern is found anywhere in a text.
-/

namespace Refactor

namespace Pattern

/-- A condition on a place in a text. -/
inductive Look
  | textStart
  | textEnd
  /-- A line starts here; lines may also be divided by carriage returns. -/
  | lineStart (returns : Bool)
  | lineEnd (returns : Bool)
  /-- A word and what is none meet here. -/
  | wordEdge
  | noWordEdge
  | wordStart
  | wordEnd
  /-- No word goes on before this place. -/
  | wordStartHalf
  /-- No word goes on behind this place. -/
  | wordEndHalf
  deriving DecidableEq, Repr

/-- Whether a condition holds at a place of a text. -/
def Look.holds (text : List Char) (i : Nat) (look : Look) : Bool :=
  let before := if i = 0 then none else text[i - 1]?
  let behind := text[i]?
  let wordBefore := before.any Text.isWordChar
  let wordBehind := behind.any Text.isWordChar
  match look with
  | .textStart => i == 0
  | .textEnd => i == text.length
  | .lineStart false => i == 0 || before == some '\n'
  | .lineStart true =>
    i == 0 || before == some '\n' || (before == some '\r' && behind != some '\n')
  | .lineEnd false => i == text.length || behind == some '\n'
  | .lineEnd true =>
    i == text.length || behind == some '\r' || (behind == some '\n' && before != some '\r')
  | .wordEdge => wordBefore != wordBehind
  | .noWordEdge => wordBefore == wordBehind
  | .wordStart => !wordBefore && wordBehind
  | .wordEnd => wordBefore && !wordBehind
  | .wordStartHalf => !wordBefore
  | .wordEndHalf => !wordBehind

end Pattern

/-- A pattern. -/
inductive Pattern
  /-- Nothing: the empty text. -/
  | nothing
  | one (set : Pattern.CharSet)
  | look (condition : Pattern.Look)
  | sequence (a b : Pattern)
  | either (a b : Pattern)
  /-- So often at least, and so often at most if there is a limit. -/
  | repeated (p : Pattern) (least : Nat) (most : Option Nat)
  deriving Repr

namespace Pattern

/-- The places that so many steps lead to. -/
def after (next : Nat → List Nat) : Nat → List Nat → List Nat
  | 0, places => places
  | count + 1, places =>
    let reached := (places.flatMap next).eraseDups
    if reached == places then places else after next count reached

/-- The places that at most so many steps lead to. -/
def within (next : Nat → List Nat) : Nat → List Nat → List Nat
  | 0, places => places
  | count + 1, places =>
    let reached := (places ++ places.flatMap next).eraseDups
    if reached.length == places.length then places else within next count reached

/-- Where the matches that begin at a place of a text end. A repetition without a limit leads
nowhere that as many steps as the text has characters do not lead to. -/
def ends (text : List Char) : Pattern → Nat → List Nat
  | nothing, i => [i]
  | one set, i => if text[i]?.any fun c => set.mem c then [i + 1] else []
  | look l, i => if l.holds text i then [i] else []
  | sequence a b, i => ((ends text a i).flatMap (ends text b)).eraseDups
  | either a b, i => (ends text a i ++ ends text b i).eraseDups
  | repeated p least most, i =>
    let more := min ((most.getD (least + text.length)) - least) text.length
    within (ends text p) more (after (ends text p) least [i])

/-- Whether a pattern is found anywhere in a text. -/
def isIn (p : Pattern) (text : String) : Bool :=
  (List.range (text.toList.length + 1)).any fun i => !(p.ends text.toList i).isEmpty

/-- Whether a condition on words occurs in a pattern. -/
def asksForWords : Pattern → Bool
  | nothing | one _ => false
  | look l => !(l matches .textStart | .textEnd | .lineStart _ | .lineEnd _)
  | sequence a b | either a b => a.asksForWords || b.asksForWords
  | repeated p _ _ => p.asksForWords

end Pattern

end Refactor
