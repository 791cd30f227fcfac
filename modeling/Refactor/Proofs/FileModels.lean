import Refactor.Proofs.Listing
import Refactor.Proofs.TextMaps
import Refactor.Proofs.Visits
import Refactor.Read.Reader

/-!
# Every file with a tree has a model

Reading the model off a tree succeeds for every tree that was grown node by node, in every language
and for every file that has a name (`Built.reads`). All that is followed on the way comes to an end
by itself: the walk of the tree (`Extracts`), the listing of the nodes below a node (`Listing`) and
the text of a type (`Python.Spells`) are described without a bound on depth or steps, and the bounds
that the definitions carry are never reached.
-/

namespace Refactor.Extract

/-! ## The text of a type -/

namespace Python

/-- The arguments of a generic type. -/
def typeArguments (t : SyntaxTree) (i : NodeId) : List NodeId :=
  match t.childOfKind? i "type_parameter" with
  | some list => t.namedChildren list
  | none => []

/-- How a type is written, however deep it is nested. -/
inductive Spells (t : SyntaxTree) : NodeId → String → Prop
  | plain {i : NodeId} (hkind : t.kind (unwrapType t i) ≠ "generic_type") :
    Spells t i (t.text (unwrapType t i))
  | generic {i : NodeId} {texts : List String} (hkind : t.kind (unwrapType t i) = "generic_type")
      (htexts : List.Forall₂ (Spells t) (typeArguments t (unwrapType t i)) texts) :
    Spells t i (((t.firstNamedChild? (unwrapType t i)).map t.text).getD "" ++ "[" ++
      Text.join ", " texts ++ "]")

theorem typeText_of_generic {t : SyntaxTree} {depth : Nat} {i : NodeId}
    (hkind : t.kind (unwrapType t i) = "generic_type") :
    typeText t (depth + 1) i = ((t.firstNamedChild? (unwrapType t i)).map t.text).getD "" ++ "[" ++
      Text.join ", " ((typeArguments t (unwrapType t i)).map (typeText t depth)) ++ "]" := by
  rw [typeText]
  dsimp only
  rw [if_pos hkind, typeArguments]
  cases t.childOfKind? (unwrapType t i) "type_parameter" <;> rfl

section

variable {t : SyntaxTree} (h : t.WellFormed)

include h

theorem le_unwrapType (i : Nat) : i ≤ unwrapType t i := by
  unfold unwrapType
  split
  · cases hfirst : t.firstNamedChild? i with
    | none => exact Nat.le_refl i
    | some first =>
      have hmem : first ∈ t.namedChildren i := List.mem_of_head? hfirst
      exact Nat.le_of_lt (h.lt_of_mem_children (List.mem_filter.mp hmem).1).1
  · exact Nat.le_refl i

theorem lt_of_mem_typeArguments {i j : Nat} (hj : j ∈ typeArguments t i) : i < j ∧ j < t.size := by
  unfold typeArguments at hj
  split at hj
  · rename_i list hlist
    obtain ⟨hbehind, hsize⟩ := h.lt_of_mem_children (List.mem_filter.mp hj).1
    exact ⟨Nat.lt_trans (h.lt_of_mem_children (List.mem_of_find?_eq_some hlist)).1 hbehind, hsize⟩
  · cases hj

/-- The depth that the text of a type is given is sufficient. -/
theorem spells_typeText {depth i : Nat} (hi : i < t.size) (hdepth : t.size ≤ depth + i) :
    Spells t i (typeText t depth i) := by
  induction depth generalizing i with
  | zero => omega
  | succ depth ih =>
    by_cases hkind : t.kind (unwrapType t i) = "generic_type"
    · rw [typeText_of_generic hkind]
      refine .generic hkind (List.forall₂_map_right_iff.mpr (List.forall₂_same.mpr fun j hj => ?_))
      obtain ⟨hbehind, hsize⟩ := lt_of_mem_typeArguments h hj
      have hunwrap := le_unwrapType h i
      exact ih hsize (by omega)
    · have hplain : typeText t (depth + 1) i = t.text (unwrapType t i) := by
        rw [typeText]
        exact if_neg hkind
      rw [hplain]
      exact .plain hkind

end

end Python

/-! ## The model of a file -/

/-- What a visit does in a language. -/
def visitOf : Language → File → NodeId → Extraction Plan
  | .python => Python.visit
  | .javaScript => JavaScript.visit
  | .cpp => Cpp.visit

/-- How a file is opened in a language. -/
def enter : Language → File → Extraction Plan
  | .python, f => Python.visitModule f SyntaxTree.root
  | .javaScript, f => JavaScript.visitProgram f SyntaxTree.root
  | .cpp, f => Cpp.visitUnit f SyntaxTree.root

/-- What is left to do with the model of a file in a language. -/
def conclude : Language → CodeModel → CodeModel
  | .cpp => CodeModel.link
  | _ => id

/-- A file's model by a walk that comes to an end. -/
def Extracts (language : Language) (f : File) (m : CodeModel) : Prop :=
  ∃ plan start inner final,
    (enter language f).run.run
      { model := (CodeModel.new (some language)).addSource f.path f.tree.source } =
      (.ok plan, start) ∧
    WalksAll (visitOf language f) plan.inside (plan.enclosure.opened start) inner ∧
    plan.after.run.run (plan.enclosure.closed start inner) = (.ok (), final) ∧
    m = conclude language final.model

theorem fileModel_eq (language : Language) (f : File) :
    fileModel language f =
      (modelOf language f do follow f.tree (visitOf language f) (← enter language f)).map
        (conclude language) := by
  have hid : ∀ x : Except Error CodeModel, x.map id = x := by
    intro x
    cases x <;> rfl
  cases language with
  | python => exact (hid _).symm
  | javaScript => exact (hid _).symm
  | cpp => rfl

theorem yields_visitOf {f : File} (h : f.Sound) (language : Language) (i : NodeId) :
    Yields (visitOf language f i) (Plan.Forward f.tree i) := by
  cases language with
  | python => exact Python.yields_visit h i
  | javaScript => exact JavaScript.yields_visit h i
  | cpp => exact Cpp.yields_visit h i

theorem yields_enter {f : File} (h : f.Sound) (language : Language) :
    Yields (enter language f) (Plan.Forward f.tree SyntaxTree.root) := by
  cases language with
  | python => exact Python.yields_visitModule h _
  | javaScript => exact JavaScript.yields_visitProgram h _
  | cpp => exact Cpp.yields_visitUnit h _

/-- **A sound file has a model, and the walk to it comes to an end.** -/
theorem fileModel_of_sound {f : File} (h : f.Sound) (language : Language) :
    ∃ m, fileModel language f = .ok m ∧ Extracts language f m := by
  obtain ⟨plan, start, henter, hforward⟩ := yields_enter h language
    { model := (CodeModel.new (some language)).addSource f.path f.tree.source }
  obtain ⟨inner, final, hfollow, hwalks, hafter⟩ :=
    follow_of_forward (yields_visitOf h language) hforward start
  refine ⟨conclude language final.model, ?_, plan, start, inner, final, henter, hwalks, hafter, rfl⟩
  rw [fileModel_eq, modelOf, run_bind_of_ok henter, hfollow]
  rfl

end Refactor.Extract

/-! ## Reading files -/

namespace Refactor.Read

theorem path_ne_of_language {path : String} {language : Language}
    (h : Language.ofPath? path = some language) : path ≠ "" := by
  rintro rfl
  have hnone : Language.ofPath? "" = none := by decide +kernel
  rw [hnone] at h
  cases h

/-- A file whose tree is given and well formed is read. -/
theorem readFile_of_wellFormed {parse : Parser} {path source : String} {language : Language}
    {tree : SyntaxTree} (hlanguage : Language.ofPath? path = some language)
    (hparse : parse language source = .ok tree) (htree : tree.WellFormed) :
    ∃ m, readFile parse path source = .built language m := by
  obtain ⟨m, hm, -⟩ := Extract.fileModel_of_sound
    (f := { path := path, tree := tree }) ⟨path_ne_of_language hlanguage, htree⟩ language
  refine ⟨m, ?_⟩
  unfold readFile
  rw [hlanguage]
  dsimp only
  rw [hparse]
  dsimp only
  rw [hm]

theorem path_of_failed {parse : Parser} {path source failed : String} {error : Error}
    (h : readFile parse path source = .failed failed error) : failed = path := by
  unfold readFile at h
  split at h
  · cases h
  · split at h
    · cases h
      rfl
    · split at h
      · cases h
      · cases h
        rfl

/-- What failed is a file that could not be read. -/
theorem exists_of_mem_failed {parse : Parser} {cache : ParserCache} {files : SourceFiles}
    {path : String} (h : path ∈ (read parse cache files).failed.map Prod.fst) :
    ∃ source error, files.get? path = some source ∧
      readFile parse path source = .failed path error := by
  obtain ⟨⟨failed, error⟩, hfailed, rfl⟩ := List.mem_map.mp h
  obtain ⟨result, hresult, hfailed⟩ := List.mem_filterMap.mp hfailed
  obtain ⟨⟨path, source⟩, hentry, rfl⟩ := List.mem_map.mp hresult
  cases hread : readFile parse path source with
  | built language m => simp [hread, FileResult.failed?] at hfailed
  | skipped other => simp [hread, FileResult.failed?] at hfailed
  | failed other error' =>
    obtain rfl := path_of_failed hread
    simp only [hread, FileResult.failed?, Option.some.injEq, Prod.mk.injEq] at hfailed
    obtain ⟨rfl, rfl⟩ := hfailed
    exact ⟨source, error', TextMap.mem_entries_iff.mp hentry, hread⟩

end Refactor.Read

namespace Refactor.SyntaxTree

/-- A tree that was grown and finished. -/
def Built (tree : SyntaxTree) : Prop :=
  ∃ t, Grown t ∧ t.finish = .ok tree

theorem Built.wellFormed {tree : SyntaxTree} (h : Built tree) : tree.WellFormed := by
  obtain ⟨t, hgrown, hfinish⟩ := h
  unfold finish at hfinish
  split at hfinish
  · cases hfinish
  · obtain rfl := Except.ok.inj hfinish
    exact hgrown.wellFormed

theorem Built.root_lt_size (h : Built t) : root < t.size := by
  obtain ⟨grown, -, hfinish⟩ := h
  unfold finish at hfinish
  split at hfinish
  · cases hfinish
  · rename_i hsize
    obtain rfl := Except.ok.inj hfinish
    exact Nat.pos_of_ne_zero hsize

theorem built_attachAll {source : String} {nodes : List SyntaxNode}
    (hfit : fit (sourceSize { source := source }) 0 nodes = true)
    (hsize : (nodes.foldl SyntaxTree.attach { source := source }).size ≠ 0) :
    Built (nodes.foldl SyntaxTree.attach { source := source }) :=
  ⟨_, (Grown.start source).attachAll hfit, if_neg hsize⟩

/-- **Every tree that can be built gives a model**, in every language and under every name, by
searches and walks that come to an end. So a file whose tree is given does not fail. -/
theorem Built.reads {tree : SyntaxTree} (h : Built tree) :
    (∀ (language : Language) (path : String), path ≠ "" →
      ∃ m, Extract.fileModel language ⟨path, tree⟩ = .ok m ∧
        Extract.Extracts language ⟨path, tree⟩ m) ∧
    (∀ (search : NodeId → Bool) (i : Nat), i < tree.size →
      Listing tree search [i] (tree.taken search tree.size [i])) ∧
    (∀ i : Nat, i < tree.size →
      Extract.Python.Spells tree i (Extract.Python.typeText tree tree.size i)) ∧
    (∀ (parse : Read.Parser) (cache : Read.ParserCache) (files : Read.SourceFiles)
      (path source : String) (language : Language), files.get? path = some source →
      Language.ofPath? path = some language → parse language source = .ok tree →
      path ∉ (Read.read parse cache files).failed.map Prod.fst) := by
  have hformed := h.wellFormed
  refine ⟨fun language path hpath => ?_, fun search i hi => ?_, fun i hi => ?_, ?_⟩
  · exact Extract.fileModel_of_sound ⟨hpath, hformed⟩ language
  · exact hformed.listing_taken search hi
  · exact Extract.Python.spells_typeText hformed hi (Nat.le_add_right _ _)
  · intro parse cache files path source language hsource hlanguage hparse hfailed
    obtain ⟨source', error, hsource', hread⟩ := Read.exists_of_mem_failed hfailed
    obtain rfl := Option.some.inj (hsource.symm.trans hsource')
    obtain ⟨m, hbuilt⟩ := Read.readFile_of_wellFormed hlanguage hparse hformed
    rw [hbuilt] at hread
    cases hread

/-- A class without a name or a body, a type without arguments, and a comment that hangs
nowhere. -/
theorem Built.reads_malformed :
    let nodes := [nodeOf "expression_statement" none 0 7 none,
      nodeOf "class_definition" none 2 2 (some 0), nodeOf "generic_type" none 2 5 (some 1),
      nodeOf "comment" none 6 7 none]
    ∃ tree, growAll { source := "x = 1\ny" } nodes = .ok tree ∧ Built tree ∧
      (∃ m, Extract.fileModel .cpp ⟨"m.cpp", tree⟩ = .ok m ∧
        Extract.Extracts .cpp ⟨"m.cpp", tree⟩ m) ∧
      Listing tree (fun _ => true) [0] (tree.below 0) ∧
      Extract.Python.Spells tree 2 (Extract.Python.typeText tree tree.size 2) ∧
      "m.py" ∉ (Read.read (fun _ _ => .ok tree) {}
        (TextMap.ofList [("m.py", "x = 1\ny")])).failed.map Prod.fst := by
  intro nodes
  have hsize : ((growAll { source := "x = 1\ny" } nodes).toOption.map size) = some 4 := by
    decide +kernel
  cases hgrown : growAll { source := "x = 1\ny" } nodes with
  | error e =>
    rw [hgrown] at hsize
    cases hsize
  | ok tree =>
    rw [hgrown] at hsize
    have hsize : tree.size = 4 := Option.some.inj hsize
    have hbuilt : Built tree :=
      ⟨tree, (Grown.start _).growAll hgrown, if_neg (by rw [hsize]; decide)⟩
    obtain ⟨hmodel, hlisting, hspells, hfailed⟩ := Built.reads hbuilt
    refine ⟨tree, rfl, hbuilt, hmodel .cpp "m.cpp" (by decide), hlisting _ 0 (by omega),
      hspells 2 (by omega), ?_⟩
    exact hfailed _ {} _ "m.py" "x = 1\ny" .python (by decide +kernel) (by decide +kernel) rfl

end Refactor.SyntaxTree
