import Refactor.Proofs.BodyScore
import Refactor.Proofs.ParameterScan
import Refactor.Proofs.StatementLines
import Refactor.Proofs.TextMaps

/-!
# Renaming the parameters of an operation

An operation whose parameters get new names, in its list of parameters and wherever a statement
mentions them, is compared to itself with a score of one, and what is found is one renaming for
each parameter whose name has changed (`between_renamed`). Names may be exchanged, and two
parameters may come to share one.

- `Scanned`: what is known after some parameters, kept by each further one (`Scanned.step`).
- `renameStatement_eq`: the renaming that is found replaces the words that were replaced.
-/

namespace Refactor

open Statement

/-! ## The operation with other names -/

/-- A name: a letter or an underscore, and word characters after it. -/
structure IsName (name : String) : Prop where
  identifier : isIdentifier name.toList = true
  word : IsWord name.toList

theorem isName_iff {name : String} :
    IsName name ↔ isIdentifier name.toList = true ∧ name.toList.all Text.isWordChar = true := by
  constructor
  · intro h
    exact ⟨h.identifier, List.all_eq_true.mpr h.word.2⟩
  · rintro ⟨hidentifier, hword⟩
    refine ⟨hidentifier, fun hnil => ?_, List.all_eq_true.mp hword⟩
    rw [hnil] at hidentifier
    cases hidentifier

instance (name : String) : Decidable (IsName name) :=
  decidable_of_iff' _ isName_iff

/-- The parameter under its new name. -/
def Parameter.renamed (r : String → String) (p : Parameter) : Parameter :=
  { p with name := r p.name }

/-- A word under its new name, if it is one of the names that are changed. -/
def renameWord (r : String → String) (names : List String) (word : List Char) : List Char :=
  if String.ofList word ∈ names then (r (String.ofList word)).toList else word

/-- A text in which every whole word that is one of the names has its new name. -/
def renameWords (r : String → String) (names : List String) (text : String) : String :=
  String.ofList (mapWords (renameWord r names) text.toList)

/-- The operation whose parameters have new names, also in its statements. -/
def Operation.renamed (r : String → String) (o : Operation) : Operation :=
  { o with
    parameters := o.parameters.map (Parameter.renamed r)
    body := o.body.map fun body =>
      Text.join "\n" ((Diff.splitStatements body).map
        (renameWords r (o.parameters.map Parameter.name))) }

/-- The parameters whose names a renaming changes. -/
def changedBy (r : String → String) (parameters : List Parameter) : List Parameter :=
  parameters.filter fun p => r p.name ≠ p.name

namespace Diff

variable {r : String → String}

/-! ## Scanning renamed parameters -/

namespace ParameterScan

/-- What a scan knows after it has compared parameters to themselves under new names. -/
structure Scanned (r : String → String) (o : Operation) (done : List Parameter)
    (scan : ParameterScan) : Prop where
  seen : scan.seen = (changedBy r done).map fun p => (p.name, r p.name)
  renames : ∀ name, scan.found.renames.get? name =
    if name ∈ (changedBy r done).map Parameter.name then some (r name) else none
  refactorings : scan.found.refactorings =
    (changedBy r done).map fun p => .renameParameter p (p.renamed r) o

theorem Scanned.step {o : Operation} {done : List Parameter} {scan : ParameterScan}
    (h : Scanned r o done scan) {p : Parameter} (hfresh : p.name ∉ done.map Parameter.name) :
    Scanned r o (done ++ [p]) (step o scan (p, p.renamed r)) := by
  by_cases hname : r p.name = p.name
  · rw [step_of_unchanged hname.symm (TypeRef.same_refl p.type)]
    have hchanged : changedBy r (done ++ [p]) = changedBy r done := by simp [changedBy, hname]
    exact ⟨by rw [hchanged, h.seen], by rw [hchanged]; exact h.renames,
      by rw [hchanged, h.refactorings]⟩
  · have hchanged : changedBy r (done ++ [p]) = changedBy r done ++ [p] := by
      simp [changedBy, hname]
    have hnew : scan.seen.contains (p.name, r p.name) = false := by
      rw [h.seen, List.contains_eq_mem, decide_eq_false_iff_not]
      intro hmem
      obtain ⟨q, hq, hpair⟩ := List.mem_map.mp hmem
      obtain ⟨hname, -⟩ := Prod.mk.inj hpair
      exact hfresh (List.mem_map.mpr ⟨q, (List.mem_filter.mp hq).1, hname⟩)
    have hstep : ParameterScan.step o scan (p, p.renamed r) =
        { seen := scan.seen ++ [(p.name, r p.name)]
          found :=
            { renames := scan.found.renames.insert p.name (r p.name)
              refactorings :=
                scan.found.refactorings ++ [.renameParameter p (p.renamed r) o] } } := by
      unfold ParameterScan.step
      dsimp only [Parameter.renamed]
      rw [if_pos (Ne.symm hname), hnew, if_neg Bool.false_ne_true]
    rw [hstep]
    refine ⟨by rw [hchanged, h.seen, List.map_append]; rfl, fun name => ?_,
      by rw [hchanged, h.refactorings, List.map_append]; rfl⟩
    rw [TextMap.get?_insert, h.renames, hchanged, List.map_append]
    by_cases heq : name = p.name
    · simp [heq]
    · simp [heq]

theorem Scanned.foldl {o : Operation} {todo done : List Parameter} {scan : ParameterScan}
    (h : Scanned r o done scan) (hnodup : ((done ++ todo).map Parameter.name).Nodup) :
    Scanned r o (done ++ todo)
      ((todo.map fun p => (p, p.renamed r)).foldl (ParameterScan.step o) scan) := by
  induction todo generalizing done scan with
  | nil => rwa [List.append_nil]
  | cons p todo ih =>
    rw [List.append_cons] at hnodup ⊢
    refine ih (h.step ?_) hnodup
    rw [List.map_append, List.map_append] at hnodup
    have hdone := (List.nodup_append.mp (List.nodup_append.mp hnodup).1).2.2
    exact fun hmem => hdone _ hmem _ List.mem_cons_self rfl

end ParameterScan

/-- A receiver that both operations share is unchanged, so leaving it out makes no difference. -/
theorem foldl_alignedParameters (o : Operation) (r : String → String) (old : Operation) :
    (alignedParameters old (old.renamed r)).foldl (ParameterScan.step o) {} =
      (old.parameters.map fun p => (p, p.renamed r)).foldl (ParameterScan.step o) {} := by
  have hplaces : old.parameters.zip (old.renamed r).parameters =
      old.parameters.map fun p => (p, p.renamed r) :=
    List.map_prod_left_eq_zip.symm
  unfold alignedParameters
  rw [hplaces]
  by_cases hself : sharesReceiver old (old.renamed r) = true
  · rw [if_pos hself]
    simp only [sharesReceiver, Operation.renamed, Bool.and_eq_true, beq_iff_eq] at hself
    obtain ⟨⟨-, hold⟩, hnew⟩ := hself
    cases hparams : old.parameters with
    | nil => rfl
    | cons p ps =>
      have hold : p.name = "self" := by simpa [hparams] using hold
      have hnew : r p.name = "self" := by simpa [hparams, Parameter.renamed] using hnew
      rw [List.map_cons, List.drop_one, List.tail_cons, List.foldl_cons,
        ParameterScan.step_of_unchanged (hold.trans hnew.symm) (TypeRef.same_refl p.type)]
  · rw [if_neg hself, List.drop_zero]

theorem scanned_renamed (o : Operation) {old : Operation}
    (hnodup : (old.parameters.map Parameter.name).Nodup) :
    ParameterScan.Scanned r o old.parameters
      ((alignedParameters old (old.renamed r)).foldl (ParameterScan.step o) {}) := by
  have hstart : ParameterScan.Scanned r o [] {} := ⟨rfl, fun _ => rfl, rfl⟩
  rw [foldl_alignedParameters]
  exact hstart.foldl hnodup

theorem renames_between_renamed {old : Operation}
    (hnodup : (old.parameters.map Parameter.name).Nodup) (name : String) :
    (ParameterMapping.between old (old.renamed r)).renames.get? name =
      if name ∈ (changedBy r old.parameters).map Parameter.name then some (r name) else none :=
  (scanned_renamed (old.renamed r) hnodup).renames name

theorem refactorings_between_renamed {old : Operation}
    (hnodup : (old.parameters.map Parameter.name).Nodup) :
    (ParameterMapping.between old (old.renamed r)).refactorings =
      (changedBy r old.parameters).map fun p =>
        .renameParameter p (p.renamed r) (old.renamed r) := by
  have hadded : (old.renamed r).parameters.drop old.parameters.length = [] := by
    rw [List.drop_eq_nil_iff, Operation.renamed, List.length_map]
  unfold ParameterMapping.between
  dsimp only
  rw [hadded, List.map_nil, List.append_nil]
  exact (scanned_renamed (old.renamed r) hnodup).refactorings

/-! ## The words that are replaced -/

/-- A name has no marks in front. -/
theorem identifierPart_of_isName {name : String} (h : IsName name) :
    identifierPart name.toList = name.toList := by
  have hstart := h.identifier
  obtain ⟨c, cs, hchars⟩ := List.exists_cons_of_ne_nil h.word.1
  rw [hchars] at hstart ⊢
  refine List.dropWhile_cons_of_neg ?_
  simp only [isIdentifier, Text.isNameStart, Bool.or_eq_true, beq_iff_eq] at hstart
  rcases hstart with hletter | rfl
  · simp [Text.isAlphanumeric, Text.isAlphabetic, Text.isAsciiLetter_toNat_lt hletter, hletter]
  · simp

/-- A renaming between names replaces a word by what it gives for the word. -/
theorem lookup_wordTable (renames : Renaming)
    (hnames : ∀ name name', renames.get? name = some name' →
      IsName name ∧ IsName name' ∧ name' ≠ name)
    (word : List Char) :
    (wordTable renames).lookup word = (renames.get? (String.ofList word)).map String.toList := by
  have hentries : ∀ entry ∈ renames.entries,
      IsName entry.1 ∧ IsName entry.2 ∧ entry.2 ≠ entry.1 := fun entry hentry =>
    hnames entry.1 entry.2 (TextMap.mem_entries_iff.mp hentry)
  have htable : wordTable renames =
      (renames.entries.map fun entry => (entry.1.toList, entry.2.toList)).reverse := by
    have hparts : (renames.entries.map fun entry =>
        (identifierPart entry.1.toList, identifierPart entry.2.toList)) =
        renames.entries.map fun entry => (entry.1.toList, entry.2.toList) := by
      refine List.map_congr_left fun entry hentry => ?_
      obtain ⟨hold, hnew, -⟩ := hentries entry hentry
      rw [identifierPart_of_isName hold, identifierPart_of_isName hnew]
    rw [wordTable, hparts]
    refine List.filter_eq_self.mpr fun pair hpair => ?_
    obtain ⟨entry, hentry, rfl⟩ := List.mem_map.mp (List.mem_reverse.mp hpair)
    obtain ⟨hold, -, hne⟩ := hentries entry hentry
    refine decide_eq_true ⟨hold.word.1, fun heq => hne (String.toList_inj.mp heq.symm)⟩
  have hkeys : ((wordTable renames).map Prod.fst).Nodup := by
    have hfst : (wordTable renames).map Prod.fst =
        ((renames.entries.map Prod.fst).map String.toList).reverse := by
      rw [htable, List.map_reverse, List.map_map, List.map_map]
      rfl
    rw [hfst, List.nodup_reverse]
    exact renames.nodup_keys.map fun _ _ => String.toList_inj.mp
  refine Option.ext fun word' => ?_
  rw [lookup_eq_some_iff_mem hkeys, htable, List.mem_reverse, List.mem_map, Option.map_eq_some_iff]
  constructor
  · rintro ⟨entry, hentry, hpair⟩
    obtain ⟨rfl, rfl⟩ := Prod.mk.inj hpair
    rw [String.ofList_toList]
    exact ⟨entry.2, TextMap.mem_entries_iff.mp hentry, rfl⟩
  · rintro ⟨name', hname', rfl⟩
    refine ⟨(String.ofList word, name'), TextMap.mem_entries_iff.mpr hname', ?_⟩
    rw [String.toList_ofList]

/-- **The renaming that is found replaces the words that were replaced.** -/
theorem renameStatement_eq {old : Operation} (hnodup : (old.parameters.map Parameter.name).Nodup)
    (hnames : ∀ p ∈ old.parameters, IsName p.name ∧ IsName (r p.name)) (statement : String) :
    renameStatement (ParameterMapping.between old (old.renamed r)).renames statement =
      renameWords r (old.parameters.map Parameter.name) statement := by
  have hget := renames_between_renamed (r := r) hnodup
  generalize (ParameterMapping.between old (old.renamed r)).renames = renames at hget ⊢
  have hlookup := lookup_wordTable renames fun name name' h => by
    rw [hget] at h
    split at h
    · rename_i hmem
      obtain ⟨p, hp, rfl⟩ := List.mem_map.mp hmem
      obtain ⟨hp, hne⟩ := List.mem_filter.mp hp
      obtain rfl := Option.some.inj h
      exact ⟨(hnames p hp).1, (hnames p hp).2, by simpa using hne⟩
    · cases h
  unfold renameStatement renameWords
  rw [substitute_eq_mapWords]
  refine congrArg String.ofList (mapWords_congr (fun word hword => ?_) _)
  unfold WordTable.wordFor renameWord
  rw [hlookup, hget]
  by_cases hparam : String.ofList word ∈ old.parameters.map Parameter.name
  · obtain ⟨p, hp, hpname⟩ := List.mem_map.mp hparam
    have hidentifier : isIdentifier word = true := by
      have hid := (hnames p hp).1.identifier
      rwa [hpname, String.toList_ofList] at hid
    rw [if_pos hparam, if_pos hidentifier]
    by_cases hname : r p.name = p.name
    · -- A name that stays is not in the table, and is its own replacement.
      rw [hpname] at hname
      rw [hname, String.toList_ofList]
      split <;> simp
    · have hchanged : String.ofList word ∈ (changedBy r old.parameters).map Parameter.name :=
        List.mem_map.mpr ⟨p, List.mem_filter.mpr ⟨hp, by simpa using hname⟩, hpname⟩
      rw [if_pos hchanged]
      rfl
  · have hunchanged : String.ofList word ∉ (changedBy r old.parameters).map Parameter.name :=
      fun hmem => hparam (List.map_subset _ (List.filter_subset_self _) hmem)
    rw [if_neg hparam, if_neg hunchanged]
    exact ite_self _

/-! ## The statements -/

theorem isWord_renameWord {names : List String} (hnames : ∀ name ∈ names, IsName (r name))
    (word : List Char) (h : IsWord word) : IsWord (renameWord r names word) := by
  unfold renameWord
  split
  · rename_i hmem
    exact (hnames _ hmem).word
  · exact h

/-- The statements of the new body are those of the old one with the names replaced. -/
theorem splitStatements_renamed {names : List String} (hnames : ∀ name ∈ names, IsName (r name))
    (body : String) :
    splitStatements (Text.join "\n" ((splitStatements body).map (renameWords r names))) =
      (splitStatements body).map (renameWords r names) := by
  refine splitStatements_join fun statement hstatement => ?_
  obtain ⟨before, hbefore, rfl⟩ := List.mem_map.mp hstatement
  rw [renameWords, String.toList_ofList]
  exact (solid_of_mem_splitStatements hbefore).mapWords (isWord_renameWord hnames)

theorem shareOf_overlap_self {old new : List String} (hlength : old.length = new.length)
    (hne : new ≠ []) : shareOf (Alignment.overlap new new) old new = .one := by
  have hpos : 0 < new.length := List.length_pos_of_ne_nil hne
  unfold shareOf
  dsimp only
  rw [hlength, Nat.max_self, if_neg (Nat.ne_of_gt hpos), Alignment.overlap_self,
    Binary64.ofRatio_self hpos]

/-- **A consistent renaming of parameters is recognised in full.** -/
theorem between_renamed (config : Config) (r : String → String) (old : Operation) {body : String}
    (hbody : old.body = some body) (hstatements : splitStatements body ≠ [])
    (hnodup : (old.parameters.map Parameter.name).Nodup)
    (hnames : ∀ p ∈ old.parameters, IsName p.name ∧ IsName (r p.name)) :
    (OperationMapping.between config old (old.renamed r)).score = .one ∧
      (OperationMapping.between config old (old.renamed r)).refactorings =
        (changedBy r old.parameters).map fun p =>
          .renameParameter p (p.renamed r) (old.renamed r) := by
  constructor
  · have hnew : (old.renamed r).body = some (Text.join "\n" ((splitStatements body).map
        (renameWords r (old.parameters.map Parameter.name)))) := by
      rw [Operation.renamed, hbody]
      rfl
    have hwords : ∀ name ∈ old.parameters.map Parameter.name, IsName (r name) := by
      intro name hname
      obtain ⟨p, hp, rfl⟩ := List.mem_map.mp hname
      exact (hnames p hp).2
    have hrename : (splitStatements body).map
        (renameStatement (ParameterMapping.between old (old.renamed r)).renames) =
        (splitStatements body).map (renameWords r (old.parameters.map Parameter.name)) :=
      List.map_congr_left fun statement _ => renameStatement_eq hnodup hnames statement
    rw [OperationMapping.score_between, OperationMapping.bodies?_of_body hbody hnew,
      splitStatements_renamed hwords]
    dsimp only
    rw [hrename]
    exact shareOf_overlap_self (by simp) (by simpa using hstatements)
  · have hname : old.name = (old.renamed r).name := rfl
    rw [OperationMapping.refactorings_of_name_eq config hname]
    exact refactorings_between_renamed hnodup

/-- Two names are exchanged, a third becomes one of them and the receiver keeps its own. Words
that only contain a name stay. -/
theorem between_renamed_exchanged :
    let parameter (name : String) : Parameter :=
      { name := name
        type := .named "object"
        location := ⟨"m.py", ⟨0, 0⟩, ⟨0, 1⟩, .parameterDeclaration, by decide, by decide⟩ }
    let old : Operation :=
      { OperationMapping.functionOf "run" "  ab = a + b \n\n\treturn self.key(ab, a1, a.b)" with
        parameters := ["self", "a", "b", "key"].map parameter }
    let r (name : String) : String :=
      if name = "self" then "self" else if name = "a" then "b" else "a"
    let mapping := OperationMapping.between {} old (old.renamed r)
    (old.renamed r).body = some "ab = b + a\nreturn self.a(ab, a1, b.a)" ∧ mapping.score = .one ∧
      mapping.refactorings.map Refactoring.description =
        ["Parameter 'a' renamed to 'b' in function 'run'",
          "Parameter 'b' renamed to 'a' in function 'run'",
          "Parameter 'key' renamed to 'a' in function 'run'"] := by
  intro parameter old r
  have hnames : ∀ name ∈ ["self", "a", "b", "key"], IsName name ∧ IsName (r name) := by
    decide +kernel
  obtain ⟨hscore, hrefactorings⟩ := between_renamed {} r old rfl (by decide +kernel)
    (by decide +kernel) fun p hp => by
      obtain ⟨name, hname, rfl⟩ := List.mem_map.mp hp
      exact hnames name hname
  refine ⟨by decide +kernel, hscore, ?_⟩
  rw [hrefactorings]
  decide +kernel

end Diff

end Refactor
