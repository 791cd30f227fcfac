import Refactor.Proofs.ChangedPaths
import Refactor.Proofs.Restriction
import Refactor.Proofs.Unchanged

/-!
# Comparing only the files that a commit changes

**Theorem (`detect_retainChanged`).** The refactorings found between the changed files alone are
those found between all files, in the same order, provided that the changed files stand `Apart`:

- all files and the changed ones are alike compared as Python or not, which decides what signatures
  look like;
- a definition and the first class of its class name are both in changed files or both in others, so
  that nothing is linked across;
- no operation of a changed file has the signature of one in another file.

Then the indexes of all files split by signatures into a part from the changed files and a part from
the others. The second part is the same before and after, so it leaves nothing for the fuzzy pass,
and its links join operations with themselves.

Each of the three can fail alone so that the results differ (`changed_files_differ`).
-/

namespace Refactor.Diff

open OperationIndex

/-! ## Signatures that only one part has -/

section

variable {p : String → Bool} {old new : OperationIndex}

/-- Indexes that are the same outside of the part have the same entries there. -/
theorem mem_of_onKeys_eq (h : old.onKeys (fun key => !p key) = new.onKeys fun key => !p key)
    {entry : Entry} (hentry : entry ∈ old) (hkey : p entry.1 = false) : entry ∈ new := by
  have hmem : entry ∈ old.onKeys fun key => !p key :=
    List.mem_filter.mpr ⟨hentry, by simp [hkey]⟩
  rw [h] at hmem
  exact (List.mem_filter.mp hmem).1

theorem entriesOnlyIn_onKeys
    (h : old.onKeys (fun key => !p key) = new.onKeys fun key => !p key) :
    entriesOnlyIn old new = entriesOnlyIn (old.onKeys p) (new.onKeys p) := by
  have hpart : old.onKeys p = old.filter fun entry => p entry.1 := rfl
  rw [entriesOnlyIn, entriesOnlyIn, hpart, List.filter_filter]
  refine List.filter_congr fun entry hentry => ?_
  rw [contains, contains, get?_onKeys]
  cases hkey : p entry.1 with
  | true => simp
  | false =>
    have hcontains : new.contains entry.1 = true :=
      contains_iff_mem.mpr (List.mem_map_of_mem (mem_of_onKeys_eq h hentry hkey))
    rw [contains] at hcontains
    simp [hcontains]

/-- What the exact pass finds, signature by signature. -/
theorem flatMap_exactMatches (config : Config) (old new : OperationIndex) :
    (exactMatches config old new).flatMap OperationMapping.refactorings =
      old.flatMap fun entry => ((new.get? entry.1).map fun o =>
        (OperationMapping.between config entry.2 o).refactorings).getD [] := by
  rw [exactMatches, List.filterMap_eq_flatMap_toList, List.flatMap_assoc]
  refine List.flatMap_congr fun entry _ => ?_
  dsimp only
  cases new.get? entry.1 <;> simp

/-- Elements that contribute nothing can be passed over. -/
theorem flatMap_filter_of_nil {α β : Type} {g g' : α → List β} {k : α → Bool} {items : List α}
    (hin : ∀ a ∈ items, k a = true → g a = g' a) (hout : ∀ a ∈ items, k a = false → g a = []) :
    items.flatMap g = (items.filter k).flatMap g' := by
  induction items with
  | nil => rfl
  | cons a items ih =>
    rw [List.forall_mem_cons] at hin hout
    rw [List.flatMap_cons, ih hin.2 hout.2, List.filter_cons]
    cases hk : k a with
    | true => rw [if_pos rfl, List.flatMap_cons, hin.1 hk]
    | false => rw [if_neg Bool.false_ne_true, hout.1 hk, List.nil_append]

theorem exactMatches_onKeys (config : Config) (hnodup : (new.map Prod.fst).Nodup)
    (h : old.onKeys (fun key => !p key) = new.onKeys fun key => !p key) :
    (exactMatches config old new).flatMap OperationMapping.refactorings =
      (exactMatches config (old.onKeys p) (new.onKeys p)).flatMap
        OperationMapping.refactorings := by
  rw [flatMap_exactMatches, flatMap_exactMatches]
  refine flatMap_filter_of_nil (fun entry _ hkey => ?_) fun entry hentry hkey => ?_
  · rw [get?_onKeys, if_pos hkey]
  · -- Outside of the part, an operation is compared with itself.
    rw [get?_of_mem hnodup (mem_of_onKeys_eq h hentry hkey), Option.map_some, Option.getD_some,
      OperationMapping.refactorings_of_sameInterface config (.refl entry.2)]

end

/-! ## Models in two parts -/

theorem signatureKey_congr {model model' : CodeModel} (h : model'.isPython = model.isPython) :
    signatureKey model' = signatureKey model := by
  funext o
  rw [signatureKey, signatureKey, h]

/-- **What both models have apart from a part of their signatures does not count.** -/
theorem detect_of_parts (config : Config) {old new old' new' : CodeModel} {rest : List Operation}
    (hpython : old'.isPython = old.isPython) {p : String → Bool}
    (hold : (old.allOperations.filter fun o => p (signatureKey old o)) = old'.allOperations)
    (hnew : (new.allOperations.filter fun o => p (signatureKey old o)) = new'.allOperations)
    (hrestOld : (old.allOperations.filter fun o => !p (signatureKey old o)) = rest)
    (hrestNew : (new.allOperations.filter fun o => !p (signatureKey old o)) = rest) :
    detect config old' new' = detect config old new := by
  have holdIndex : (signatureIndex old old).onKeys p = signatureIndex old' old' := by
    rw [signatureIndex, onKeys_ofOperations, hold, signatureIndex, signatureKey_congr hpython]
  have hnewIndex : (signatureIndex old new).onKeys p = signatureIndex old' new' := by
    rw [signatureIndex, onKeys_ofOperations, hnew, signatureIndex, signatureKey_congr hpython]
  have hrest : (signatureIndex old old).onKeys (fun key => !p key) =
      (signatureIndex old new).onKeys fun key => !p key := by
    rw [signatureIndex, signatureIndex, onKeys_ofOperations, onKeys_ofOperations, hrestOld,
      hrestNew]
  rw [detect, detect, matchOperations_eq, matchOperations_eq, List.flatMap_append,
    List.flatMap_append, exactMatches_onKeys config (nodup_signatureIndex old new) hrest,
    entriesOnlyIn_onKeys hrest, entriesOnlyIn_onKeys hrest.symm, holdIndex, hnewIndex]

end Refactor.Diff

/-! ## Changed files -/

namespace Refactor.Repository

/-- The files that are not changed are the same before and after. -/
theorem filter_not_changed (before after : TextMap String) :
    (before.filter fun path _ => !(changedPaths before after).contains path) =
      after.filter fun path _ => !(changedPaths before after).contains path := by
  refine TextMap.ext_get? fun path => ?_
  rw [TextMap.get?_filter, TextMap.get?_filter]
  by_cases hchanged : path ∈ changedPaths before after
  · simp [hchanged]
  · rw [not_not.mp fun hne => hchanged (mem_changedPaths_iff.mpr hne)]

open Read Diff CodeModel

section

variable (parse : Parser) (cache : ParserCache) (s : Snapshots)

/-- Signatures look the same with and without the other files. -/
def SignaturesAlike : Prop :=
  (read parse cache s.retainChanged.before).model.isPython =
    (read parse cache s.before).model.isPython

/-- A definition is in a changed file exactly if the first class of its class name is. -/
def LinkedApart : Prop :=
  ∀ files ∈ [s.before, s.after], ∀ o ∈ (gathered parse files).operations,
    LinksWithin s.changed.contains (gathered parse files) o

/-- No operation of a changed file has the signature of one in another file. -/
def SignedApart : Prop :=
  ∀ files ∈ [s.retainChanged.before, s.retainChanged.after],
    ∀ o ∈ (read parse cache files).model.allOperations,
    ∀ other ∈ (read parse cache
      (s.before.filter fun path _ => !s.changed.contains path)).model.allOperations,
    signatureKey (read parse cache s.before).model o ≠
      signatureKey (read parse cache s.before).model other

/-- The changed files can be compared by themselves. -/
structure Apart : Prop where
  language : SignaturesAlike parse cache s
  definitions : LinkedApart parse s
  signatures : SignedApart parse cache s

instance : Decidable (SignaturesAlike parse cache s) :=
  inferInstanceAs (Decidable (_ = _))

instance : Decidable (LinkedApart parse s) :=
  inferInstanceAs (Decidable (∀ files ∈ _, ∀ o ∈ _, _))

instance : Decidable (SignedApart parse cache s) :=
  inferInstanceAs (Decidable (∀ files ∈ _, ∀ o ∈ _, ∀ other ∈ _, _ ≠ _))

end

/-- **Changed files that stand apart can be compared by themselves.** -/
theorem detect_retainChanged (config : Config) (parse : Parser) (cache : ParserCache)
    (commit : String) (parent : Option String) (before after : SourceFiles)
    (h : Apart parse cache (.between commit parent before after)) :
    let changed := (Snapshots.between commit parent before after).retainChanged
    detect config (read parse cache changed.before).model (read parse cache changed.after).model =
      detect config (read parse cache before).model (read parse cache after).model := by
  intro changed
  -- A signature counts if an operation of a changed file has it.
  let counts (key : String) : Bool := [changed.before, changed.after].any fun files =>
    (read parse cache files).model.allOperations.any fun o =>
      signatureKey (read parse cache before).model o == key
  have hin : ∀ files ∈ [changed.before, changed.after],
      ∀ o ∈ (read parse cache files).model.allOperations,
        counts (signatureKey (read parse cache before).model o) = true := by
    intro files hfiles o ho
    exact List.any_eq_true.mpr ⟨files, hfiles, List.any_eq_true.mpr ⟨o, ho, BEq.rfl⟩⟩
  have hout : ∀ o ∈ (read parse cache (before.filter fun path _ =>
        !(changedPaths before after).contains path)).model.allOperations,
      counts (signatureKey (read parse cache before).model o) = false := by
    intro other hother
    refine Bool.eq_false_iff.mpr fun hcounts => ?_
    obtain ⟨files, hfiles, hany⟩ := List.any_eq_true.mp hcounts
    obtain ⟨o, ho, hsame⟩ := List.any_eq_true.mp hany
    exact h.signatures files hfiles o ho other hother (beq_iff_eq.mp hsame)
  obtain ⟨hold, hrestOld⟩ := filter_allOperations_read parse cache
    (h.definitions before (by simp [Snapshots.between])) (hin changed.before (by simp)) hout
  rw [filter_not_changed] at hout
  obtain ⟨hnew, hrestNew⟩ := filter_allOperations_read parse cache
    (h.definitions after (by simp [Snapshots.between])) (hin changed.after (by simp)) hout
  have hunchanged := congrArg (fun files => (read parse cache files).model.allOperations)
    (filter_not_changed before after)
  exact detect_of_parts config h.language hold hnew hrestOld (hrestNew.trans hunchanged.symm)

/-! ## Each condition is needed -/

/-- A structure that declares a member function with one parameter, such as
`struct Box { void put(int n); };`. The parameter has the given number of bytes and this name. -/
def declarationNodes (width : Nat) (name : List SyntaxNode) : List SyntaxNode :=
  [nodeOf "translation_unit" none 0 (width + 27) none,
    nodeOf "struct_specifier" none 0 (width + 26) (some 0),
    nodeOf "type_identifier" (some "name") 7 10 (some 1),
    nodeOf "field_declaration_list" (some "body") 11 (width + 26) (some 1),
    nodeOf "field_declaration" none 13 (width + 24) (some 3),
    nodeOf "primitive_type" (some "type") 13 17 (some 4),
    nodeOf "function_declarator" (some "declarator") 18 (width + 23) (some 4),
    nodeOf "field_identifier" (some "declarator") 18 21 (some 6),
    nodeOf "parameter_list" (some "parameters") 21 (width + 23) (some 6),
    nodeOf "parameter_declaration" none 22 (width + 22) (some 8),
    nodeOf "primitive_type" (some "type") 22 25 (some 9)] ++ name

/-- A structure without members: `struct Box {};`. -/
def emptyNodes : List SyntaxNode :=
  [nodeOf "translation_unit" none 0 14 none,
    nodeOf "struct_specifier" none 0 13 (some 0),
    nodeOf "type_identifier" (some "name") 7 10 (some 1),
    nodeOf "field_declaration_list" (some "body") 11 13 (some 1)]

/-- A definition outside of its class, such as `void Box::put(int n) { hold(n); }`. -/
def definitionNodes : List SyntaxNode :=
  [nodeOf "translation_unit" none 0 33 none,
    nodeOf "function_definition" none 0 33 (some 0),
    nodeOf "primitive_type" (some "type") 0 4 (some 1),
    nodeOf "function_declarator" (some "declarator") 5 20 (some 1),
    nodeOf "qualified_identifier" (some "declarator") 5 13 (some 3),
    nodeOf "parameter_list" (some "parameters") 13 20 (some 3),
    nodeOf "parameter_declaration" none 14 19 (some 5),
    nodeOf "primitive_type" (some "type") 14 17 (some 6),
    nodeOf "identifier" (some "declarator") 18 19 (some 6),
    nodeOf "compound_statement" (some "body") 21 33 (some 1)]

/-- Knows these layouts by the length of the source, and empty Python files. -/
def parseBox : Parser := fun language source =>
  let nodes :=
    if language = .python then [nodeOf "module" none 0 0 none]
    else if source.length = 14 then emptyNodes
    else if source.length = 30 then declarationNodes 3 []
    else if source.length = 32 then
      declarationNodes 5 [nodeOf "identifier" (some "declarator") 26 27 (some 9)]
    else definitionNodes
  .ok (nodes.foldl SyntaxTree.attach { source := source })

/-- How many refactorings are found between the changed files, and how many between all. -/
def foundCounts (s : Snapshots) : Nat × Nat :=
  let model (files : SourceFiles) : CodeModel := (read parseBox {} files).model
  ((detect {} (model s.retainChanged.before) (model s.retainChanged.after)).length,
    (detect {} (model s.before) (model s.after)).length)

/-- A parameter is renamed in a declaration and its definition, beside a definition that stays. -/
theorem detect_retainChanged_box :
    let before : SourceFiles := .ofList
      [("bin.cpp", "void Bin::get(int k) { take(k); }"),
        ("box.cpp", "void Box::put(int n) { hold(n); }"),
        ("box.hpp", "struct Box { void put(int n); };")]
    let after : SourceFiles := .ofList
      [("bin.cpp", "void Bin::get(int k) { take(k); }"),
        ("box.cpp", "void Box::put(int m) { hold(m); }"),
        ("box.hpp", "struct Box { void put(int m); };")]
    let changed := (Snapshots.between "" none before after).retainChanged
    Apart parseBox {} (.between "" none before after) ∧
      changed.before.keys = ["box.cpp", "box.hpp"] ∧
      foundCounts (.between "" none before after) = (1, 1) ∧
      detect {} (read parseBox {} changed.before).model (read parseBox {} changed.after).model =
        detect {} (read parseBox {} before).model (read parseBox {} after).model := by
  intro before after changed
  have hapart : Apart parseBox {} (.between "" none before after) := by
    refine ⟨?_, ?_, ?_⟩
    · decide +kernel
    · decide +kernel
    · decide +kernel
  exact ⟨hapart, by decide +kernel, by decide +kernel,
    detect_retainChanged {} parseBox {} "" none before after hapart⟩

/-- A type is changed beside two Python files. -/
def besidePython : Snapshots :=
  .between "" none
    (.ofList [("bin.cpp", "void Bin::get(int k) { take(k); }"), ("x.py", ""), ("y.py", "")])
    (.ofList [("bin.cpp", "void Bin::get(any k) { return 1;}"), ("x.py", ""), ("y.py", "")])

/-- A parameter is renamed in a function that stands in a later file, too. -/
def besideTwin : Snapshots :=
  .between "" none
    (.ofList [("bin.cpp", "void Bin::get(int k) { take(k); }"),
      ("old.cpp", "void Bin::get(int k) { take(k); }")])
    (.ofList [("bin.cpp", "void Bin::get(int j) { take(j); }"),
      ("old.cpp", "void Bin::get(int k) { take(k); }")])

/-- A parameter is renamed in a definition, its declaration is spaced differently, and an earlier
file has an empty structure of the same name. -/
def besideNamesake : Snapshots :=
  .between "" none
    (.ofList [("a.hpp", "struct Box {};"), ("box.cpp", "void Box::put(int n) { hold(n); }"),
      ("box.hpp", "struct Box { void put(int); };")])
    (.ofList [("a.hpp", "struct Box {};"), ("box.cpp", "void Box::put(int m) { hold(m); }"),
      ("box.hpp", "struct Box { void put(int) ;};")])

/-- **Each of the three conditions can fail alone, and then the results differ.** Without the other
files a change of type is missed, because signatures have types when no Python file is there. A
renamed parameter is reported that is hidden behind an operation of the same signature in a later
file, and one that is hidden behind its own declaration, which stays apart from the definition when
an unchanged class of the same name comes first. -/
theorem changed_files_differ :
    (¬ SignaturesAlike parseBox {} besidePython ∧ LinkedApart parseBox besidePython ∧
      SignedApart parseBox {} besidePython ∧ foundCounts besidePython = (0, 1)) ∧
    (SignaturesAlike parseBox {} besideNamesake ∧ ¬ LinkedApart parseBox besideNamesake ∧
      SignedApart parseBox {} besideNamesake ∧ foundCounts besideNamesake = (1, 0)) ∧
    (SignaturesAlike parseBox {} besideTwin ∧ LinkedApart parseBox besideTwin ∧
      ¬ SignedApart parseBox {} besideTwin ∧ foundCounts besideTwin = (1, 0)) := by
  refine ⟨⟨?_, ?_, ?_, ?_⟩, ⟨?_, ?_, ?_, ?_⟩, ?_, ?_, ?_, ?_⟩
  all_goals decide +kernel

end Refactor.Repository
