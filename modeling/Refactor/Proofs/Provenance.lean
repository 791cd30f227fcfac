import Refactor.Proofs.FileModels
import Refactor.Proofs.PlacedVisits

/-!
# The file that a model is about

**Theorem (`fileModel_placed`).** Everything in a file's model stands at a node of the file's tree,
in every language, and every member of a class carries the name of the class.

The empty model is placed, every visit places what it records, and linking places nothing elsewhere.
So all classes and operations are located in the file (`fileModel_within`), and the file is the only
source of its model.
-/

namespace Refactor

namespace Extract

variable {language : Language} {f : File}

theorem places_visitOf (language : Language) (i : NodeId) :
    Places language f (visitOf language f i) (Plan.Placed language f) := by
  cases language with
  | python => exact Python.places_visit i
  | javaScript => exact JavaScript.places_visit i
  | cpp => exact Cpp.places_visit i

theorem places_enter (language : Language) :
    Places language f (enter language f) (Plan.Placed language f) := by
  cases language with
  | python => exact places_opening _ _
  | javaScript => exact places_opening _ _
  | cpp => exact places_opening _ _

/-- The model that an extraction starts from. -/
theorem placed_start (language : Language) (f : File) :
    State.Placed language f
      { model := (CodeModel.new (some language)).addSource f.path f.tree.source } where
  model :=
    { classes := fun _ hc => absurd hc List.not_mem_nil
      operations := fun _ ho => absurd ho List.not_mem_nil
      unowned := fun _ _ ho => absurd ho List.not_mem_nil
      comments := fun _ _ h => absurd h (Option.some_ne_none _).symm
      imports := fun _ _ h => absurd h (Option.some_ne_none _).symm
      sources := rfl }
  currentClass := fun _ hc => absurd hc (Option.some_ne_none _).symm

theorem placed_of_fileModel {m : CodeModel} (h : fileModel language f = .ok m) :
    m.Placed language f := by
  have hwalk : Places language f (do follow f.tree (visitOf language f) (← enter language f))
      fun _ => True :=
    (places_enter language).bind fun _ hplan =>
      places_follow f.tree (places_visitOf language) hplan
  rw [fileModel_eq] at h
  obtain ⟨walked, hwalked, rfl⟩ := exists_of_map_ok h
  obtain ⟨final, hrun, rfl⟩ := exists_of_modelOf hwalked
  have hplaced := (hwalk _ () final (placed_start language f) hrun).1.model
  cases language with
  | cpp => exact hplaced.link
  | _ => exact hplaced

/-- **Everything in a file's model stands at a node of its tree**, in every language, and every
member of a class carries the name of the class. -/
theorem fileModel_placed (hbuilt : f.tree.Built) (hpath : f.path ≠ "") (language : Language) :
    ∃ m, fileModel language f = .ok m ∧ m.Placed language f := by
  obtain ⟨m, hm, -⟩ := fileModel_of_sound ⟨hpath, hbuilt.wellFormed⟩ language
  exact ⟨m, hm, placed_of_fileModel hm⟩

/-- A member function is declared with an unnamed parameter and defined outside of its class. -/
def memberDefinition : File :=
  let nodes :=
    [nodeOf "translation_unit" none 0 41 none,
      nodeOf "struct_specifier" none 0 22 (some 0),
      nodeOf "type_identifier" (some "name") 7 8 (some 1),
      nodeOf "field_declaration_list" (some "body") 8 22 (some 1),
      nodeOf "field_declaration" none 9 21 (some 3),
      nodeOf "function_declarator" (some "declarator") 14 20 (some 4),
      nodeOf "field_identifier" (some "declarator") 14 15 (some 5),
      nodeOf "parameter_list" (some "parameters") 15 20 (some 5),
      nodeOf "parameter_declaration" none 16 19 (some 7),
      nodeOf "primitive_type" (some "type") 16 19 (some 8),
      nodeOf "function_definition" none 23 41 (some 0),
      nodeOf "function_declarator" (some "declarator") 28 39 (some 10),
      nodeOf "qualified_identifier" (some "declarator") 28 32 (some 11),
      nodeOf "parameter_list" (some "parameters") 32 39 (some 11),
      nodeOf "parameter_declaration" none 33 38 (some 13),
      nodeOf "primitive_type" (some "type") 33 36 (some 14),
      nodeOf "identifier" (some "declarator") 37 38 (some 14),
      nodeOf "compound_statement" (some "body") 39 41 (some 10)]
  { path := "a.cpp"
    tree := nodes.foldl SyntaxTree.attach
      { source := "struct A{void f(int);};void A::f(int x){}" } }

/-- The columns where the operations of all classes start, with those of their parameters. -/
def memberColumns (m : CodeModel) : List (Option String × Nat × List Nat) :=
  (m.classes.flatMap Class.operations).map fun o =>
    (o.className, o.location.start.column, o.parameters.map fun p => p.location.start.column)

/-- The declaration stands where it was, and its parameter where the definition has it. -/
theorem fileModel_placed_memberDefinition :
    memberDefinition.tree.Built ∧ ∃ m, fileModel .cpp memberDefinition = .ok m ∧
      m.Placed .cpp memberDefinition ∧ memberColumns m = [(some "A", 9, [33])] := by
  have hbuilt : memberDefinition.tree.Built :=
    SyntaxTree.built_attachAll (by decide +kernel) (by decide +kernel)
  obtain ⟨m, hm, hplaced⟩ := fileModel_placed hbuilt (by decide) .cpp
  have hcolumns : (fileModel .cpp memberDefinition).toOption.map memberColumns =
      some [(some "A", 9, [33])] := by decide +kernel
  rw [hm] at hcolumns
  exact ⟨hbuilt, m, hm, hplaced, Option.some.inj hcolumns⟩

end Extract

/-- All classes, and all operations outside of classes, are located in the file. -/
structure CodeModel.Within (path : String) (m : CodeModel) : Prop where
  classes : ∀ c ∈ m.classes, c.location.file = path
  operations : ∀ o ∈ m.operations, o.location.file = path

/-- **A file's model is about that file.** -/
theorem Extract.fileModel_within {language : Language} {f : File} {m : CodeModel}
    (h : fileModel language f = .ok m) : m.Within f.path where
  classes := fun c hc => ((placed_of_fileModel h).classes c hc).location.1
  operations := fun o ho => ((placed_of_fileModel h).operations o ho).location.1

end Refactor
