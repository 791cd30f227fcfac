import Mathlib.Data.Finset.Card
import Mathlib.Logic.Function.Basic
import Refactor.Proofs.TextMaps
import Refactor.Read.ParserCache

/-!
# The cache under any schedule

Any number of callers share one cache. A call takes one or two steps, each of which sees and changes
the cache at once: a look-up, and a second look if that found nothing. Between the two steps the
others go on, and somebody may let go of all parsers. A schedule is the order in which the steps are
taken.

**Theorem (`run_counts`).** After every schedule there were as many parsers made as calls missed,
hits and misses together are the calls that were answered, and no more parsers are at hand than were
made. If nothing was let go of, there is one parser for each language that was answered for, and two
answers are the same parser exactly if they are for the same language.

Whatever a step is, it does one of four things to the cache (`step_cases`): it answers with a parser
at hand, it makes one and answers with it, it changes nothing, or it lets go of all. The first
invariant, `Counted`, is kept by all of them, and the second, `Kept`, by all but the last.
-/

namespace Refactor.Read

/-- What a caller does in one step. Who lets go of the parsers makes no difference. -/
inductive Act (κ : Type)
  | lookUp (caller : κ) (language : Language)
  | lookAgain (caller : κ)
  | clear

/-- A cache and its callers. -/
structure Shared (κ : Type) where
  cache : ParserCache := {}
  /-- What those callers ask for whose look-up found nothing. -/
  waiting : κ → Option Language := fun _ => none
  /-- The calls that were answered, with the parsers they were given. -/
  answers : List (Language × Nat) := []

namespace Shared

variable {κ : Type}

/-- The state after a step, if the step can be taken: a call has to end before its caller makes
another one, and only who looked up in vain looks again. -/
def step [DecidableEq κ] (s : Shared κ) : Act κ → Option (Shared κ)
  | .lookUp caller language =>
    if s.waiting caller = none then
      match s.cache.lookUp language with
      | (some parser, cache) =>
        some { s with cache := cache, answers := s.answers ++ [(language, parser)] }
      | (none, cache) =>
        some { s with
          cache := cache
          waiting := Function.update s.waiting caller (some language) }
    else none
  | .lookAgain caller =>
    (s.waiting caller).map fun language =>
      { cache := (s.cache.obtain language).2
        waiting := Function.update s.waiting caller none
        answers := s.answers ++ [(language, (s.cache.obtain language).1)] }
  | .clear => some { s with cache := s.cache.clear }

/-- The state after a schedule, if all of its steps can be taken. -/
def run [DecidableEq κ] (s : Shared κ) : List (Act κ) → Option (Shared κ)
  | [] => some s
  | act :: schedule => (s.step act).bind fun s => s.run schedule

/-- What every step of a schedule keeps, the schedule keeps. -/
theorem run_preserves [DecidableEq κ] {P : Shared κ → Prop} {schedule : List (Act κ)}
    {s s' : Shared κ}
    (hstep : ∀ act ∈ schedule, ∀ s s' : Shared κ, s.step act = some s' → P s → P s')
    (h : s.run schedule = some s') (hs : P s) : P s' := by
  induction schedule generalizing s with
  | nil =>
    cases h
    exact hs
  | cons act schedule ih =>
    obtain ⟨next, hnext, hrest⟩ := Option.bind_eq_some_iff.mp h
    exact ih (fun act hact => hstep act (List.mem_cons_of_mem _ hact)) hrest
      (hstep act List.mem_cons_self s next hnext hs)

/-- A call that nobody interrupts is a request. -/
theorem run_uninterrupted [DecidableEq κ] (s : Shared κ) {caller : κ}
    (hcaller : s.waiting caller = none) (language : Language) :
    ∃ later : List (Act κ), (later = [] ∨ later = [.lookAgain caller]) ∧
      s.run (.lookUp caller language :: later) =
        some { s with
          cache := (s.cache.request language).2
          answers := s.answers ++ [(language, (s.cache.request language).1)] } := by
  unfold ParserCache.request
  cases hfound : s.cache.parser? language with
  | some parser =>
    refine ⟨[], .inl rfl, ?_⟩
    simp only [run, step, hcaller, if_true, ParserCache.lookUp, hfound, Option.bind_some]
  | none =>
    refine ⟨[.lookAgain caller], .inr rfl, ?_⟩
    simp only [run, step, hcaller, if_true, ParserCache.lookUp, hfound, Option.bind_some,
      Function.update_self, Option.map_some, Function.update_idem]
    rw [← hcaller, Function.update_eq_self]

/-! ## What a step does -/

/-- What a step does to the cache and to the answers given so far, if it is not the one that lets go
of all parsers. -/
inductive Effect (cache : ParserCache) (answers : List (Language × Nat)) :
    ParserCache → List (Language × Nat) → Prop
  /-- A parser at hand is the answer. -/
  | hit {language : Language} {parser : Nat} (found : cache.parser? language = some parser) :
      Effect cache answers { cache with hits := cache.hits + 1 } (answers ++ [(language, parser)])
  /-- A new parser is the answer, and it is at hand from then on. -/
  | made {language : Language} (missing : cache.parser? language = none) :
      Effect cache answers
        { parsers := (language, cache.creates) :: cache.parsers
          hits := cache.hits
          misses := cache.misses + 1
          creates := cache.creates + 1 }
        (answers ++ [(language, cache.creates)])
  /-- A look-up finds nothing. -/
  | missed : Effect cache answers cache answers

theorem step_cases [DecidableEq κ] {s s' : Shared κ} {act : Act κ} (h : s.step act = some s') :
    Effect s.cache s.answers s'.cache s'.answers ∨
      act = .clear ∧ s'.cache = s.cache.clear ∧ s'.answers = s.answers := by
  cases act with
  | lookUp caller language =>
    rw [step] at h
    split at h
    · cases hfound : s.cache.parser? language with
      | some parser =>
        rw [ParserCache.lookUp, hfound] at h
        cases h
        exact .inl (.hit hfound)
      | none =>
        rw [ParserCache.lookUp, hfound] at h
        cases h
        exact .inl .missed
    · cases h
  | lookAgain caller =>
    obtain ⟨language, -, rfl⟩ := Option.map_eq_some_iff.mp h
    left
    cases hfound : s.cache.parser? language with
    | some parser =>
      rw [ParserCache.obtain, hfound]
      exact .hit hfound
    | none =>
      rw [ParserCache.obtain, hfound]
      exact .made hfound
  | clear =>
    cases h
    exact .inr ⟨rfl, rfl, rfl⟩

/-! ## Invariants -/

/-- What is counted is what happened. -/
structure Counted (cache : ParserCache) (answers : List (Language × Nat)) : Prop where
  creates_eq : cache.creates = cache.misses
  length_answers : cache.hits + cache.misses = answers.length
  size_le : cache.size ≤ cache.creates

/-- Everything that was made is at hand: parsers are numbered as they were made, each for a language
of its own, and the answers that were given are the parsers at hand. -/
structure Kept (cache : ParserCache) (answers : List (Language × Nat)) : Prop where
  numbers : cache.parsers.map Prod.snd = (List.range cache.creates).reverse
  languages : (cache.parsers.map Prod.fst).Nodup
  mem_answers : ∀ answer, answer ∈ answers ↔ answer ∈ cache.parsers

section

variable {cache cache' : ParserCache} {answers answers' : List (Language × Nat)}

theorem Counted.effect (h : Counted cache answers)
    (heffect : Effect cache answers cache' answers') : Counted cache' answers' := by
  obtain ⟨hcreates, hlength, hsize⟩ := h
  cases heffect with
  | hit found =>
    refine ⟨hcreates, ?_, hsize⟩
    rw [List.length_append, ← hlength]
    exact Nat.add_right_comm _ _ _
  | made missing =>
    refine ⟨congrArg (· + 1) hcreates, ?_, Nat.succ_le_succ hsize⟩
    rw [List.length_append, ← hlength]
    rfl
  | missed => exact ⟨hcreates, hlength, hsize⟩

theorem Counted.clear (h : Counted cache answers) : Counted cache.clear answers :=
  ⟨h.creates_eq, h.length_answers, Nat.zero_le _⟩

theorem Kept.effect (h : Kept cache answers)
    (heffect : Effect cache answers cache' answers') : Kept cache' answers' := by
  obtain ⟨hnumbers, hlanguages, hmem⟩ := h
  cases heffect with
  | @hit language parser found =>
    have hparser : (language, parser) ∈ cache.parsers :=
      (lookup_eq_some_iff_mem hlanguages).mp found
    refine ⟨hnumbers, hlanguages, fun answer => ?_⟩
    rw [List.mem_append, List.mem_singleton, hmem]
    exact ⟨fun hor => hor.elim id fun heq => heq ▸ hparser, .inl⟩
  | @made language missing =>
    refine ⟨?_, ?_, fun answer => ?_⟩
    · rw [List.range_succ, List.reverse_append, List.map_cons, hnumbers]
      rfl
    · rw [List.map_cons, List.nodup_cons]
      -- An entry of the language would have been found by the second look.
      refine ⟨fun hlanguage => ?_, hlanguages⟩
      obtain ⟨entry, hentry, rfl⟩ := List.mem_map.mp hlanguage
      have hfound := (lookup_eq_some_iff_mem hlanguages).mpr hentry
      rw [← ParserCache.parser?, missing] at hfound
      cases hfound
    · rw [List.mem_append, List.mem_singleton, List.mem_cons, hmem]
      exact Or.comm
  | missed => exact ⟨hnumbers, hlanguages, hmem⟩

end

namespace Kept

variable {cache : ParserCache} {answers : List (Language × Nat)} (h : Kept cache answers)

include h

theorem creates_eq_size : cache.creates = cache.size := by
  simpa [ParserCache.size] using (congrArg List.length h.numbers).symm

theorem size_eq_card : cache.size = (answers.map Prod.fst).toFinset.card := by
  have hlanguages : (answers.map Prod.fst).toFinset = (cache.parsers.map Prod.fst).toFinset := by
    ext language
    simp only [List.mem_toFinset, List.mem_map, h.mem_answers]
  rw [hlanguages, List.toFinset_card_of_nodup h.languages, List.length_map, ParserCache.size]

theorem same_parser_iff {answer other : Language × Nat} (hanswer : answer ∈ answers)
    (hother : other ∈ answers) : answer.2 = other.2 ↔ answer.1 = other.1 := by
  rw [h.mem_answers] at hanswer hother
  have hnumbers : (cache.parsers.map Prod.snd).Nodup := by
    rw [h.numbers, List.nodup_reverse]
    exact List.nodup_range
  constructor
  · intro heq
    rw [List.inj_on_of_nodup_map hnumbers hanswer hother heq]
  · intro heq
    rw [List.inj_on_of_nodup_map h.languages hanswer hother heq]

end Kept

theorem counted_run [DecidableEq κ] {schedule : List (Act κ)} {s : Shared κ}
    (h : run {} schedule = some s) : Counted s.cache s.answers := by
  refine run_preserves (P := fun s => Counted s.cache s.answers)
    (fun act _ before after hstep hbefore => ?_) h ⟨rfl, rfl, Nat.le_refl 0⟩
  rcases step_cases hstep with heffect | ⟨-, hcache, hanswers⟩
  · exact hbefore.effect heffect
  · rw [hcache, hanswers]
    exact hbefore.clear

theorem kept_run [DecidableEq κ] {schedule : List (Act κ)} {s : Shared κ}
    (h : run {} schedule = some s) (hclear : Act.clear ∉ schedule) : Kept s.cache s.answers := by
  refine run_preserves (P := fun s => Kept s.cache s.answers)
    (fun act hact before after hstep hbefore => ?_) h ⟨rfl, List.nodup_nil, fun _ => Iff.rfl⟩
  rcases step_cases hstep with heffect | ⟨rfl, -⟩
  · exact hbefore.effect heffect
  · exact absurd hact hclear

/-- **What the cache counts is right under every schedule**, and without letting go there is one
parser per language. -/
theorem run_counts [DecidableEq κ] {schedule : List (Act κ)} {s : Shared κ}
    (h : run {} schedule = some s) :
    (s.cache.creates = s.cache.misses ∧ s.cache.hits + s.cache.misses = s.answers.length ∧
        s.cache.size ≤ s.cache.creates) ∧
      (Act.clear ∉ schedule →
        s.cache.creates = s.cache.size ∧
        s.cache.size = (s.answers.map Prod.fst).toFinset.card ∧
        ∀ answer ∈ s.answers, ∀ other ∈ s.answers,
          answer.2 = other.2 ↔ answer.1 = other.1) := by
  have hcounted := counted_run h
  refine ⟨⟨hcounted.creates_eq, hcounted.length_answers, hcounted.size_le⟩, fun hclear => ?_⟩
  have hkept := kept_run h hclear
  exact ⟨hkept.creates_eq_size, hkept.size_eq_card,
    fun _ hanswer _ hother => hkept.same_parser_iff hanswer hother⟩

/-- Two callers look up before either makes a parser. -/
def race : List (Act Bool) :=
  [.lookUp false .python, .lookUp true .python, .lookAgain true, .lookAgain false,
    .lookUp false .cpp, .lookAgain false]

/-- The caller that looks again last finds what the other one made. -/
theorem run_counts_race :
    ∃ s : Shared Bool, run {} race = some s ∧ Act.clear ∉ race ∧
      s.answers = [(.python, 0), (.python, 0), (.cpp, 1)] ∧
      (s.cache.hits = 1 ∧ s.cache.misses = 2 ∧ s.cache.creates = s.cache.misses ∧
        s.cache.hits + s.cache.misses = s.answers.length) ∧
      s.cache.creates = s.cache.size ∧ s.cache.size = (s.answers.map Prod.fst).toFinset.card := by
  obtain ⟨s, hs, hanswers, hhits, hmisses⟩ : ∃ s : Shared Bool, run {} race = some s ∧
      s.answers = [(.python, 0), (.python, 0), (.cpp, 1)] ∧ s.cache.hits = 1 ∧
      s.cache.misses = 2 := ⟨_, rfl, rfl, rfl, rfl⟩
  have hclear : Act.clear ∉ race := by simp [race]
  obtain ⟨⟨hcreates, hcalls, -⟩, hkept⟩ := run_counts hs
  obtain ⟨hsize, hcard, -⟩ := hkept hclear
  exact ⟨s, hs, hclear, hanswers, ⟨hhits, hmisses, hcreates, hcalls⟩, hsize, hcard⟩

-- Letting go between the two looks makes a second parser for the language.
example : (run {} [.lookUp false .python, .lookUp true .python, .lookAgain true, .clear,
    .lookAgain false]).map (fun s => (s.answers, s.cache.creates, s.cache.size)) =
      some ([(.python, 0), (.python, 1)], 2, 1) := by
  rfl

end Shared

end Refactor.Read
