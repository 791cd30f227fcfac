import Refactor.Proofs.Gathering

/-!
# The outline of a JavaScript file

**Theorem (`program_follows_outline`).** If no two classes and no two functions of a file cover the
same bytes, the model of the file is its outline: one class for each class declaration that is
reached and has a name and a body, inner classes before their outer class, the named methods in the
innermost class around them, outside of classes the named functions and the function values that a
variable is declared with, in reading order, and nothing from inside of functions, fields and
imports.

The roles of nodes are given by their kinds (`role`), and the visits obey them (`obeys_visit`). Here
a role depends on whether a class is open: methods count inside of classes only, functions outside
only.
-/

namespace Refactor.Extract.JavaScript

open SyntaxTree (root Under)

/-- The name of the variable that is declared with a value. -/
def variableName? (t : SyntaxTree) (value : NodeId) : Option String :=
  (t.parent? value).bind fun declarator =>
    if t.kind declarator = "variable_declarator" then t.fieldText? declarator "name" else none

/-- The kinds of function-like nodes. -/
def functionKinds : List String :=
  ["method_definition", "function_declaration", "generator_function_declaration", "arrow_function",
    "function_expression"]

/-- What a node is for an outline. -/
def role (t : SyntaxTree) (i : NodeId) : Role :=
  if t.kind i = "class_declaration" then .ofClass t i
  else if t.kind i = "method_definition" then
    .leaf fun inside => if inside then t.fieldText? i "name" else none
  else if t.kind i = "function_declaration" ∨ t.kind i = "generator_function_declaration" then
    .leaf fun inside => if inside then none else t.fieldText? i "name"
  else if t.kind i = "arrow_function" ∨ t.kind i = "function_expression" then
    .leaf fun inside => if inside then none else variableName? t i
  else if t.kind i = "field_definition" ∨ t.kind i = "import_statement" then .silent
  else .through

variable {f : File}

/-! ## Visits obey the roles -/

theorem fresh_of_classAt {ctx : Context} {i name : NodeId} {c : Class}
    (hname : f.tree.childInField? i "name" = some name)
    (h : classAt f ctx i name = .ok c) : Fresh f i ctx.inClass c := by
  obtain ⟨location, hlocation, h⟩ := exists_of_bind_ok h
  obtain ⟨annotations, -, h⟩ := exists_of_bind_ok h
  have hcore : c.core = (f.tree.text name, location, ctx.inClass, []) := by
    rw [← Except.ok.inj h, Class.core_addAnnotations, Class.core_addSuperclasses]
    rfl
  simp only [Class.core, Prod.mk.injEq] at hcore
  obtain ⟨hnamed, hlocated, hinner, hoperations⟩ := hcore
  refine ⟨hlocated ▸ hlocation, ?_, hinner, hoperations⟩
  rw [hnamed, SyntaxTree.fieldText?, hname]
  rfl

theorem outcome_visitClass {i : NodeId} {s mid : State} {plan : Plan}
    (hrun : (visitClass f i).run.run s = (.ok plan, mid)) :
    Outcome f i s (.ofClass f.tree i) plan mid := by
  unfold visitClass at hrun
  split at hrun
  · rename_i name body hname hbody
    rw [Role.ofClass_of_some hname hbody]
    exact outcome_opens (fun _ _ hopened => fresh_of_classAt hname hopened) (by intro; rfl) hbody
      hrun
  · rename_i hmissing
    rw [Role.ofClass_of_missing hmissing]
    exact outcome_skips rfl (unseen_pure rfl) hrun

theorem core_of_operationAt {ctx : Context} {i : NodeId} {name : String} {o : Operation}
    (h : operationAt f ctx i name = .ok o) :
    o.name = name ∧ f.locate i .methodDeclaration = .ok o.location ∧ o.className = none := by
  obtain ⟨location, hlocation, h⟩ := exists_of_bind_ok h
  obtain ⟨annotations, -, h⟩ := exists_of_bind_ok h
  obtain ⟨parameters, -, h⟩ := exists_of_bind_ok h
  have hcore : o.core = (name, location, none) := by
    rw [← Except.ok.inj h, foldl_keeps (g := Operation.core) (by intros; rfl)]
    rfl
  simp only [Operation.core, Prod.mk.injEq] at hcore
  obtain ⟨hnamed, hlocated, hclass⟩ := hcore
  exact ⟨hnamed, hlocated ▸ hlocation, hclass⟩

theorem outcome_visitFunction {i : NodeId} {s mid : State} {plan : Plan}
    {name? : Bool → Option String} (hname : name? s.context.inClass = operationName? f.tree i)
    (hrun : (visitFunction f i).run.run s = (.ok plan, mid)) :
    Outcome f i s (.leaf name?) plan mid := by
  unfold visitFunction at hrun
  split at hrun
  · rename_i name hnamed
    exact outcome_declares (hname.trans hnamed) (fun o ho => core_of_operationAt ho)
      (fun _ o => declaring_record o) hrun
  · rename_i hnone
    exact outcome_skips (hname.trans (Option.eq_none_iff_forall_ne_some.mpr hnone))
      (unseen_pure rfl) hrun

/-- A visit that records a function only inside of classes, or only outside. -/
theorem outcome_of_inClass {i : NodeId} {s mid : State} {plan : Plan}
    {inside outside : Extraction Plan} {role : Role}
    (hinside : s.context.inClass = true → inside.run.run s = (.ok plan, mid) →
      Outcome f i s role plan mid)
    (houtside : s.context.inClass = false → outside.run.run s = (.ok plan, mid) →
      Outcome f i s role plan mid)
    (hrun : (do if (← getContext).inClass then inside else outside : Extraction Plan).run.run s =
      (.ok plan, mid)) : Outcome f i s role plan mid := by
  obtain ⟨ctx, s', hcontext, hrun⟩ := exists_of_run_bind hrun
  cases hcontext
  split at hrun
  · rename_i hclass
    exact hinside hclass hrun
  · rename_i hclass
    exact houtside (Bool.eq_false_iff.mpr hclass) hrun

theorem unseen_visitField (i : NodeId) : Unseen (visitField f i) fun plan => plan = .stop := by
  unfold visitField
  dsimp only
  split
  · exact (unseen_lift _).bind fun _ _ =>
      (unseen_modifyClass (by intro; rfl)).bind fun _ _ => unseen_pure rfl
  · exact unseen_pure rfl

theorem unseen_recordClause (source : String) (location : Location) (i : NodeId) :
    Unseen (recordClause f source location i) fun _ => True := by
  unfold recordClause
  dsimp only
  split
  · exact unseen_recordImport f _
  · split
    · exact unseen_recordImport f _
    · split
      · exact unseen_forM _ fun _ => unseen_forM _ fun _ => (unseen_lift _).bind fun _ _ =>
          unseen_recordImport f _
      · exact unseen_pure trivial

theorem unseen_visitImport (i : NodeId) : Unseen (visitImport f i) fun plan => plan = .stop := by
  unfold visitImport
  dsimp only
  split
  · refine (unseen_lift _).bind fun location _ => ?_
    split
    · exact (unseen_recordImport f _).bind fun _ _ => unseen_pure rfl
    · exact (unseen_forM _ (unseen_recordClause _ location)).bind fun _ _ => unseen_pure rfl
  · exact unseen_pure rfl

/-- **Every visit does what the role of its node says.** -/
theorem obeys_visit (f : File) : Obeys (role f.tree) f (visit f) := by
  intro i s plan mid hrun
  unfold visit at hrun
  by_cases hclass : f.tree.kind i = "class_declaration"
  · rw [role, if_pos hclass]
    rw [hclass] at hrun
    exact outcome_visitClass hrun
  by_cases hmethod : f.tree.kind i = "method_definition"
  · have hname : operationName? f.tree i = f.tree.fieldText? i "name" := by
      rw [operationName?, hmethod]
      rfl
    rw [role, if_neg hclass, if_pos hmethod, ← hname]
    rw [hmethod] at hrun
    refine outcome_of_inClass (fun hinside => outcome_visitFunction ?_)
      (fun houtside => outcome_skips ?_ (unseen_pure rfl)) hrun
    · exact if_pos hinside
    · exact if_neg (Bool.eq_false_iff.mp houtside)
  -- Functions and function values differ in where their names come from only.
  have houtside : Construct.ofKind (f.tree.kind i) = .functionDeclaration ∨
      Construct.ofKind (f.tree.kind i) = .functionValue →
      Outcome f i s (.leaf fun inside => if inside then none else operationName? f.tree i) plan
        mid := by
    intro hconstruct
    have hvisit : (do if (← getContext).inClass then return .stop else visitFunction f i :
        Extraction Plan).run.run s = (.ok plan, mid) := by
      rcases hconstruct with hconstruct | hconstruct
      · rw [hconstruct] at hrun
        exact hrun
      · rw [hconstruct] at hrun
        exact hrun
    refine outcome_of_inClass (fun hinside => outcome_skips ?_ (unseen_pure rfl))
      (fun houtside => outcome_visitFunction ?_) hvisit
    · exact if_pos hinside
    · exact if_neg (Bool.eq_false_iff.mp houtside)
  by_cases hfunction : f.tree.kind i = "function_declaration" ∨
      f.tree.kind i = "generator_function_declaration"
  · have hconstruct : Construct.ofKind (f.tree.kind i) = .functionDeclaration := by
      rcases hfunction with hkind | hkind
      · rw [hkind]
        rfl
      · rw [hkind]
        rfl
    have hname : operationName? f.tree i = f.tree.fieldText? i "name" := by
      rw [operationName?, hconstruct]
      rfl
    rw [role, if_neg hclass, if_neg hmethod, if_pos hfunction, ← hname]
    exact houtside (.inl hconstruct)
  by_cases hvalue : f.tree.kind i = "arrow_function" ∨ f.tree.kind i = "function_expression"
  · have hconstruct : Construct.ofKind (f.tree.kind i) = .functionValue := by
      rcases hvalue with hkind | hkind
      · rw [hkind]
        rfl
      · rw [hkind]
        rfl
    have hname : operationName? f.tree i = variableName? f.tree i := by
      rw [operationName?, hconstruct]
      rfl
    rw [role, if_neg hclass, if_neg hmethod, if_neg hfunction, if_pos hvalue, ← hname]
    exact houtside (.inr hconstruct)
  by_cases hsilent : f.tree.kind i = "field_definition" ∨ f.tree.kind i = "import_statement"
  · rw [role, if_neg hclass, if_neg hmethod, if_neg hfunction, if_neg hvalue, if_pos hsilent]
    rcases hsilent with hkind | hkind
    · rw [hkind] at hrun
      exact outcome_skips rfl (unseen_visitField i) hrun
    · rw [hkind] at hrun
      exact outcome_skips rfl (unseen_visitImport i) hrun
  rw [role, if_neg hclass, if_neg hmethod, if_neg hfunction, if_neg hvalue, if_neg hsilent]
  by_cases hprogram : f.tree.kind i = "program"
  · rw [hprogram] at hrun
    exact outcome_through (unseen_opening f i _) hrun
  · have hother : Construct.ofKind (f.tree.kind i) = .other := by
      simp only [not_or] at hsilent
      simp only [Construct.ofKind, hprogram, hclass, hmethod, hfunction, hvalue, hsilent, if_false]
    rw [hother] at hrun
    exact outcome_through (unseen_pure rfl) hrun

/-! ## The outline -/

theorem kind_of_opens {t : SyntaxTree} {i : NodeId} (h : role t i = .opens) :
    t.kind i = "class_declaration" := by
  by_contra hkind
  rw [role, if_neg hkind] at h
  split_ifs at h
  cases h

theorem kind_of_name {t : SyntaxTree} {i : NodeId} {inside : Bool}
    (h : ((role t i).name? inside).isSome = true) : t.kind i ∈ functionKinds := by
  by_contra hkind
  simp only [functionKinds, List.mem_cons, List.not_mem_nil, or_false, not_or] at hkind
  obtain ⟨hmethod, hfunction, hgenerator, harrow, hexpression⟩ := hkind
  unfold role at h
  simp only [hmethod, hfunction, hgenerator, harrow, hexpression, or_self, if_false] at h
  split at h
  · rw [Role.name?_ofClass] at h
    cases h
  · split at h <;> cases h

/-- The kinds of nodes that are not walked. -/
theorem exists_leaf_of_kind {t : SyntaxTree} {i : NodeId}
    (h : t.kind i ∈ functionKinds ++ ["field_definition", "import_statement"]) :
    ∃ name?, role t i = .leaf name? := by
  simp only [functionKinds, List.cons_append, List.nil_append, List.mem_cons, List.not_mem_nil,
    or_false] at h
  unfold role
  rcases h with h | h | h | h | h | h | h
  all_goals
    rw [h]
    exact ⟨_, rfl⟩

theorem distinctRanges (hclasses : f.tree.DistinctSpans ["class_declaration"])
    (hfunctions : f.tree.DistinctSpans functionKinds) : DistinctRanges (role f.tree) f where
  classes := fun a b ha hb => hclasses.eq (by decide)
    (List.mem_singleton.mpr (kind_of_opens ha)) (List.mem_singleton.mpr (kind_of_opens hb))
  operations := fun inside a b ha hb =>
    hfunctions.eq (by decide) (kind_of_name ha) (kind_of_name hb)

/-- **The model of a JavaScript file is its outline**, in which inner classes stand before their
outer class, and nothing is reached below a function, a field or an import. The root stands for the
whole file and the body of a class for its members, whatever their kinds. -/
theorem program_follows_outline (hbuilt : f.tree.Built)
    (hclasses : f.tree.DistinctSpans ["class_declaration"])
    (hfunctions : f.tree.DistinctSpans functionKinds) :
    (f.path ≠ "" → ∃ m, model f = .ok m) ∧
    (∀ m, model f = .ok m → Exact (role f.tree) f m) ∧
    Outlined (role f.tree) f.tree ∧
    ∀ i j c, f.tree.kind i ∈ functionKinds ++ ["field_definition", "import_statement"] →
      ¬ Entered (role f.tree) f.tree i → Under f.tree i j → i ≠ j →
      ¬ Reached (role f.tree) f.tree c j := by
  have hwell := hbuilt.wellFormed
  refine ⟨fun hpath => ?_, fun m hm => ?_, outlined hwell hbuilt.root_lt_size, ?_⟩
  · obtain ⟨m, hm, -⟩ := fileModel_of_sound ⟨hpath, hwell⟩ .javaScript
    exact ⟨m, hm⟩
  · exact exact_of_modelOf hwell (distinctRanges hclasses hfunctions) (obeys_visit f)
      hbuilt.root_lt_size (fun s plan mid => outcome_through (unseen_opening f root _)) hm
  · intro i j c hkind hentered hunder hne
    obtain ⟨name?, hrole⟩ := exists_leaf_of_kind hkind
    exact not_reached_below_leaf hwell hrole hentered hunder hne

/-- The nodes of `class A{static{class B{}}m(){function h(){}}}let k=()=>0`. -/
def staticBlockNodes : List SyntaxNode :=
  [nodeOf "program" none 0 56 none,
    nodeOf "class_declaration" none 0 45 (some 0),
    nodeOf "identifier" (some "name") 6 7 (some 1),
    nodeOf "class_body" (some "body") 7 45 (some 1),
    nodeOf "class_static_block" none 8 25 (some 3),
    nodeOf "class_declaration" none 15 24 (some 4),
    nodeOf "identifier" (some "name") 21 22 (some 5),
    nodeOf "class_body" (some "body") 22 24 (some 5),
    nodeOf "method_definition" none 25 44 (some 3),
    nodeOf "property_identifier" (some "name") 25 26 (some 8),
    nodeOf "statement_block" (some "body") 28 44 (some 8),
    nodeOf "function_declaration" none 29 43 (some 10),
    nodeOf "identifier" (some "name") 38 39 (some 11),
    nodeOf "variable_declarator" none 49 56 (some 0),
    nodeOf "identifier" (some "name") 49 50 (some 13),
    nodeOf "arrow_function" (some "value") 51 56 (some 13)]

/-- A class in a static block of a class, a function in a method, and a function value outside. -/
def staticBlock : SyntaxTree :=
  staticBlockNodes.foldl SyntaxTree.attach
    { source := "class A{static{class B{}}m(){function h(){}}}let k=()=>0" }

/-- The method and the function value are there, and the function in the method is left out. -/
theorem program_follows_outline_staticBlock :
    staticBlock.Built ∧ staticBlock.DistinctSpans ["class_declaration"] ∧
      staticBlock.DistinctSpans functionKinds ∧
      ∃ m, model ⟨"a.js", staticBlock⟩ = .ok m ∧
        outlineNames m = ([("B", true, []), ("A", false, ["m"])], ["k"]) ∧
        Exact (role staticBlock) ⟨"a.js", staticBlock⟩ m := by
  have hbuilt : staticBlock.Built :=
    SyntaxTree.built_attachAll (by decide +kernel) (by decide +kernel)
  have hclasses : staticBlock.DistinctSpans ["class_declaration"] := by decide +kernel
  have hfunctions : staticBlock.DistinctSpans functionKinds := by decide +kernel
  obtain ⟨hread, hexact, -⟩ :=
    program_follows_outline (f := ⟨"a.js", staticBlock⟩) hbuilt hclasses hfunctions
  obtain ⟨m, hm⟩ := hread (by decide)
  refine ⟨hbuilt, hclasses, hfunctions, m, hm, ?_, hexact m hm⟩
  have hnames : (model ⟨"a.js", staticBlock⟩).toOption.map outlineNames =
      some ([("B", true, []), ("A", false, ["m"])], ["k"]) := by decide +kernel
  rw [hm] at hnames
  exact Option.some.inj hnames

/-- Classes are not listed in reading order: the outer class is read first and listed last. -/
theorem inner_class_listed_first :
    (staticBlock.descendants root "class_declaration").map (staticBlock.fieldText? · "name") =
        [some "A", some "B"] ∧
      (model ⟨"a.js", staticBlock⟩).toOption.map (fun m => m.classes.map Class.name) =
        some ["B", "A"] := by
  constructor
  · decide +kernel
  · decide +kernel

end Refactor.Extract.JavaScript
