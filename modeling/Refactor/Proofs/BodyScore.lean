import Refactor.Diff.Bodies
import Refactor.Proofs.Matching
import Refactor.Proofs.ParameterScan
import Refactor.Proofs.Rounding

/-!
# What the statements of two bodies have in common

**Theorem (`statements_maximum`).** The statements that correspond in two bodies are as many as
the renamed statements of the old body and those of the new one have in common, each text
counted as often as in the body that has it less often. The score is their share of the longer
body, a number between zero and one, and does not depend on the order of the statements.

The alignment of the statements is a maximum matching (`Alignment.length_pairs`); what is left is
that every pair of positions is recorded as a comparison of the two statements there.
-/

namespace Refactor.Diff

open Refactor.Alignment

/-- A statement with its parameters renamed. -/
def renameStatement (renames : Renaming) (statement : String) : String :=
  String.ofList (Statement.substitute (Statement.wordTable renames) statement.toList)

/-! ## Recorded comparisons -/

/-- A comparison records the statements at a pair of positions, which correspond. -/
structure Records (renames : Renaming) (old new : List String) (c : StatementComparison)
    (pair : Nat × Nat) : Prop where
  before : old[pair.1]? = some c.before
  after : new[pair.2]? = some c.after
  corresponds : renameStatement renames c.before = c.after

theorem forall₂_filterMap {α β : Type} {R : β → α → Prop} {f : α → Option β} {l : List α}
    (h : ∀ a ∈ l, ∃ b, f a = some b ∧ R b a) : List.Forall₂ R (l.filterMap f) l := by
  induction l with
  | nil => exact .nil
  | cons a l ih =>
    obtain ⟨b, hb, hR⟩ := h a List.mem_cons_self
    rw [List.filterMap_cons_some hb]
    exact .cons hR (ih fun x hx => h x (List.mem_cons_of_mem _ hx))

theorem matchStatements_records (renames : Renaming) (old new : List String) :
    List.Forall₂ (Records renames old new) (matchStatements renames old new)
      (pairs (old.map (renameStatement renames)) new) := by
  refine forall₂_filterMap fun pair hpair => ?_
  obtain ⟨text, hleft, hright⟩ := (pairs_matching _ new).equal pair hpair
  rw [List.getElem?_map, Option.map_eq_some_iff] at hleft
  obtain ⟨statement, hstatement, rfl⟩ := hleft
  refine ⟨StatementComparison.between renames statement (renameStatement renames statement),
    ?_, hstatement, hright, rfl⟩
  obtain ⟨i, j⟩ := pair
  dsimp only at hstatement hright ⊢
  rw [hstatement, hright]
  rfl

theorem corresponds_of_mem {renames : Renaming} {old new : List String} {c : StatementComparison}
    (h : c ∈ matchStatements renames old new) : renameStatement renames c.before = c.after := by
  have hboth : List.Forall₂ (fun (c : StatementComparison) pair =>
      renameStatement renames c.before = c.after ∧ Records renames old new c pair)
      (matchStatements renames old new) (pairs (old.map (renameStatement renames)) new) :=
    (matchStatements_records renames old new).imp fun _ _ h => ⟨h.corresponds, h⟩
  exact ((List.forall₂_and_left _ _).mp hboth).1 c h

theorem length_matchStatements (renames : Renaming) (old new : List String) :
    (matchStatements renames old new).length =
      overlap (old.map (renameStatement renames)) new := by
  rw [(matchStatements_records renames old new).length_eq, length_pairs]

theorem overlap_le_longer {α : Type} [DecidableEq α] (f : α → α) (old new : List α) :
    overlap (old.map f) new ≤ max old.length new.length := by
  refine (overlap_le_left _ new).trans ?_
  rw [List.length_map]
  exact Nat.le_max_left _ _

/-! ## Mappings -/

namespace OperationMapping

variable (config : Config) (old new : Operation)

/-- Two operations compared, before it is settled whether the name was changed. -/
def basis : OperationMapping :=
  { old := old
    new := new
    renames := (ParameterMapping.between old new).renames
    statements :=
      match bodies? old new with
      | some (before, after) =>
        matchStatements (ParameterMapping.between old new).renames before after
      | none => []
    refactorings := (ParameterMapping.between old new).refactorings }

theorem between_eq : between config old new =
    if old.name ≠ new.name ∧ config.threshold.le (basis old new).score = true then
      { basis old new with
        refactorings := (basis old new).refactorings ++ [.renameMethod old new] }
    else basis old new :=
  rfl

@[simp] theorem between_old : (between config old new).old = old := by
  rw [between_eq]
  split_ifs <;> rfl

@[simp] theorem between_new : (between config old new).new = new := by
  rw [between_eq]
  split_ifs <;> rfl

@[simp] theorem between_renames :
    (between config old new).renames = (ParameterMapping.between old new).renames := by
  rw [between_eq]
  split_ifs <;> simp only [basis]

@[simp] theorem between_statements :
    (between config old new).statements = (basis old new).statements := by
  rw [between_eq]
  split_ifs <;> rfl

/-- The score does not depend on whether the name was changed. -/
theorem score_eq_basis : (between config old new).score = (basis old new).score := by
  rw [score, between_old, between_new, between_statements, score]
  rfl

theorem score_between : (between config old new).score =
    match bodies? old new with
    | some (before, after) =>
      let renames := (ParameterMapping.between old new).renames
      shareOf (overlap (before.map (renameStatement renames)) after) before after
    | none => .zero := by
  rw [score_eq_basis, score, basis]
  cases bodies? old new with
  | none => rfl
  | some bodies => simp only [length_matchStatements]

/-- Scores are finite numbers without a sign, and at most one. -/
theorem exists_units_score :
    ∃ units, units ≤ Binary64.oneUnits ∧
      (between config old new).score = .finite false units := by
  rw [score_between]
  cases bodies? old new with
  | none => exact ⟨0, Nat.zero_le _, rfl⟩
  | some bodies =>
    obtain ⟨before, after⟩ := bodies
    dsimp only [shareOf]
    split
    · exact ⟨0, Nat.zero_le _, rfl⟩
    · rename_i hlonger
      exact Binary64.ofRatio_eq_finite (Nat.pos_of_ne_zero hlonger)
        (overlap_le_longer _ before after)

theorem score_inUnitInterval : (between config old new).score.inUnitInterval = true := by
  obtain ⟨units, hunits, heq⟩ := exists_units_score config old new
  rw [heq]
  exact Binary64.finite_inUnitInterval hunits

theorem bodies?_of_body {old new : Operation} {before after : String}
    (hold : old.body = some before) (hnew : new.body = some after) :
    bodies? old new = some (splitStatements before, splitStatements after) := by
  simp [bodies?, hold, hnew]

theorem exists_body_of_bodies? {old new : Operation} {statements : List String × List String}
    (h : bodies? old new = some statements) :
    ∃ before after, old.body = some before ∧ new.body = some after ∧
      statements = (splitStatements before, splitStatements after) := by
  cases hold : old.body with
  | none => simp [bodies?, hold] at h
  | some before =>
    cases hnew : new.body with
    | none => simp [bodies?, hold, hnew] at h
    | some after =>
      rw [bodies?_of_body hold hnew] at h
      exact ⟨before, after, rfl, rfl, (Option.some.inj h).symm⟩

/-- A positive share is one of a positive number of pairs. -/
theorem ne_zero_of_shareOf_pos {count : Nat} {before after : List String}
    (h : Binary64.zero.lt (shareOf count before after) = true) : count ≠ 0 := by
  rintro rfl
  rw [shareOf, Binary64.ofRatio_zero, ite_self] at h
  exact Binary64.not_zero_lt_zero h

/-- A positive score takes two bodies, each with a statement. -/
theorem bodies_of_score_pos {config : Config} {old new : Operation}
    (h : Binary64.zero.lt (between config old new).score = true) :
    ∃ before after, old.body = some before ∧ new.body = some after ∧
      splitStatements before ≠ [] ∧ splitStatements after ≠ [] := by
  rw [score_between] at h
  cases hbodies : bodies? old new with
  | none =>
    rw [hbodies] at h
    exact absurd h Binary64.not_zero_lt_zero
  | some statements =>
    rw [hbodies] at h
    obtain ⟨before, after, hold, hnew, rfl⟩ := exists_body_of_bodies? hbodies
    have hcommon := ne_zero_of_shareOf_pos h
    refine ⟨before, after, hold, hnew, fun hnil => hcommon ?_, fun hnil => hcommon ?_⟩
    · rw [hnil, List.map_nil]
      exact Nat.le_zero.mp (overlap_le_left [] _)
    · rw [hnil]
      exact Nat.le_zero.mp (overlap_le_right _ [])

/-! ## Renamed operations -/

theorem refactorings_of_name_ne {config : Config} {old new : Operation}
    (hname : old.name ≠ new.name)
    (h : config.threshold.le (between config old new).score = true) :
    (between config old new).refactorings =
      (ParameterMapping.between old new).refactorings ++ [.renameMethod old new] := by
  rw [score_eq_basis] at h
  rw [between_eq, if_pos ⟨hname, h⟩]
  rfl

theorem refactorings_of_name_eq (config : Config) {old new : Operation}
    (hname : old.name = new.name) :
    (between config old new).refactorings = (ParameterMapping.between old new).refactorings := by
  rw [between_eq, if_neg fun h => h.1 hname]
  rfl

/-! ## The maximum -/

/-- **The statements that correspond are a maximum matching.** Each recorded pair corresponds,
no position of a body is used twice, and the pairs are as many as the renamed statements of the
old body and those of the new one have in common. The score is their share of the longer body,
and the order of the statements in either body does not change it. -/
theorem statements_maximum {old new : Operation} {before after : String}
    (hold : old.body = some before) (hnew : new.body = some after) :
    let mapping := between config old new
    let renamed := (splitStatements before).map (renameStatement mapping.renames)
    let target := splitStatements after
    let longer := max (splitStatements before).length target.length
    (∀ c ∈ mapping.statements, renameStatement mapping.renames c.before = c.after) ∧
    (∃ positions, Matching renamed target positions ∧
      List.Forall₂ (Records mapping.renames (splitStatements before) target) mapping.statements
        positions) ∧
    mapping.statements.length = overlap renamed target ∧
    (∀ positions, Matching renamed target positions →
      positions.length ≤ mapping.statements.length) ∧
    mapping.score = (if longer = 0 then .zero else .ofRatio (overlap renamed target) longer) ∧
    mapping.score.inUnitInterval = true ∧
    ∀ (other : Config) (before' after' : String),
      (splitStatements before').Perm (splitStatements before) →
      (splitStatements after').Perm target →
      (between other { old with body := some before' } { new with body := some after' }).score =
        mapping.score := by
  intro mapping renamed target longer
  have hbodies := bodies?_of_body hold hnew
  have hrenames : mapping.renames = (ParameterMapping.between old new).renames :=
    between_renames config old new
  have hstatements : mapping.statements =
      matchStatements mapping.renames (splitStatements before) target := by
    rw [hrenames]
    simp only [mapping, between_statements, basis, hbodies, target]
  have hrecords := matchStatements_records mapping.renames (splitStatements before) target
  rw [← hstatements] at hrecords
  have hlength : mapping.statements.length = overlap renamed target := by
    rw [hstatements, length_matchStatements]
  have hscore : mapping.score =
      shareOf (overlap renamed target) (splitStatements before) target := by
    simp only [mapping, score_between, hbodies, renamed, target, between_renames]
  refine ⟨fun c hc => ?_, ⟨_, pairs_matching renamed target, hrecords⟩, hlength,
    fun positions h => hlength ▸ h.length_le, hscore, score_inUnitInterval config old new, ?_⟩
  · exact corresponds_of_mem (hstatements ▸ hc)
  · intro other before' after' hbefore hafter
    -- The parameters are untouched, so both pairs of bodies are compared under one renaming.
    have hsame : (ParameterMapping.between { old with body := some before' }
        { new with body := some after' }).renames = mapping.renames := by
      rw [hrenames]
      exact ParameterMapping.renames_congr rfl rfl rfl
    rw [hscore, score_between, bodies?_of_body rfl rfl]
    dsimp only [shareOf]
    rw [hsame, overlap_perm (hbefore.map _) hafter, hbefore.length_eq, hafter.length_eq]

/-- A function with nothing but a body. -/
def functionOf (name body : String) : Operation :=
  { name := name
    location := ⟨"m.py", ⟨0, 0⟩, ⟨0, 1⟩, .methodDeclaration, by decide, by decide⟩
    body := some body }

/-- Three of four statements correspond, one of them out of order, and reading either body
backwards changes nothing. -/
theorem statements_maximum_reordered :
    let old := functionOf "run" "a = load()\nb = parse(a)\nlog(b)\nreturn b"
    let new := functionOf "run" "log_start()\na = load()\nreturn b\nb = parse(a)"
    let mapping := between {} old new
    mapping.statements.length = 3 ∧ mapping.score = .ofRatio 3 4 ∧
      (between {} { old with body := some "return b\nlog(b)\nb = parse(a)\na = load()" }
        { new with body := some "b = parse(a)\nreturn b\na = load()\nlog_start()" }).score =
        mapping.score := by
  intro old new mapping
  obtain ⟨-, -, hlength, -, hscore, -, hperm⟩ := @statements_maximum {} old new _ _ rfl rfl
  refine ⟨hlength.trans (by decide +kernel), hscore.trans (by decide +kernel), ?_⟩
  exact hperm {} _ _ (by decide +kernel) (by decide +kernel)

end OperationMapping

end Refactor.Diff
