import Refactor.Proofs.Gathering

/-!
# The outline of a Python file

**Theorem (`model_follows_outline`).** If no two classes and no two functions of a file cover the
same bytes, the model of the file is its outline: one class for each class definition that is
reached and has a name and a body, one operation for each function definition that is reached and
has a name, each in the innermost class around it, and nothing from inside of functions. The root
and the body of a class are entered whatever their kinds; if one of these is a function, what is in
it is reached (`function_in_root_function_recorded`).

The roles of nodes are given by their kinds (`role`), and the visits obey them (`obeys_visit`).
-/

namespace Refactor.Extract.Python

open SyntaxTree (root Under)

/-- What a node is for an outline. -/
def role (t : SyntaxTree) (i : NodeId) : Role :=
  if t.kind i = "class_definition" then .ofClass t i
  else if t.kind i = "function_definition" then .leaf fun _ => t.fieldText? i "name"
  else if t.kind i = "expression_statement" ∨ t.kind i = "import_statement" ∨
      t.kind i = "import_from_statement" then .silent
  else .through

variable {f : File}

/-! ## Visits obey the roles -/

theorem fresh_of_classAt {ctx : Context} {i name body : NodeId} {c : Class}
    (hname : f.tree.childInField? i "name" = some name)
    (h : classAt f ctx i name body = .ok c) : Fresh f i ctx.inClass c := by
  obtain ⟨location, hlocation, h⟩ := exists_of_bind_ok h
  obtain ⟨annotations, -, h⟩ := exists_of_bind_ok h
  obtain ⟨comment, -, h⟩ := exists_of_bind_ok h
  have hcore : c.core = (f.tree.text name, location, ctx.inClass, []) := by
    rw [← Except.ok.inj h, foldl_keeps (g := Class.core) (by intros; rfl),
      Class.core_addAnnotations]
    exact Class.core_addSuperclasses _ _
  simp only [Class.core, Prod.mk.injEq] at hcore
  obtain ⟨hnamed, hlocated, hinner, hoperations⟩ := hcore
  refine ⟨hlocated ▸ hlocation, ?_, hinner, hoperations⟩
  rw [hnamed, SyntaxTree.fieldText?, hname]
  rfl

theorem outcome_visitClass {i : NodeId} {s mid : State} {plan : Plan}
    (hrun : (visitClass f i).run.run s = (.ok plan, mid)) :
    Outcome f i s (.ofClass f.tree i) plan mid := by
  unfold visitClass at hrun
  split at hrun
  · rename_i name body hname hbody
    rw [Role.ofClass_of_some hname hbody]
    exact outcome_opens (fun _ _ hopened => fresh_of_classAt hname hopened) (by intro; rfl) hbody
      hrun
  · rename_i hmissing
    rw [Role.ofClass_of_missing hmissing]
    exact outcome_skips rfl (unseen_pure rfl) hrun

theorem core_decorate (o : Operation) (a : Annotation) : (decorate o a).core = o.core := by
  unfold decorate
  dsimp only
  split
  · rfl
  · split <;> rfl

theorem core_of_operationAt {ctx : Context} {i name : NodeId} {o : Operation}
    (h : operationAt f ctx i name = .ok o) :
    o.name = f.tree.text name ∧ f.locate i .methodDeclaration = .ok o.location ∧
      o.className = none := by
  obtain ⟨location, hlocation, h⟩ := exists_of_bind_ok h
  obtain ⟨annotations, -, h⟩ := exists_of_bind_ok h
  obtain ⟨parameters, -, h⟩ := exists_of_bind_ok h
  have hcore : o.core = (f.tree.text name, location, none) := by
    dsimp only at h
    split at h
    all_goals
      obtain ⟨comment, -, h⟩ := exists_of_bind_ok h
      rw [← Except.ok.inj h, foldl_keeps (g := Operation.core) (by intros; rfl),
        foldl_keeps (g := Operation.core) core_decorate]
      rfl
  simp only [Operation.core, Prod.mk.injEq] at hcore
  obtain ⟨hnamed, hlocated, hclass⟩ := hcore
  exact ⟨hnamed, hlocated ▸ hlocation, hclass⟩

theorem core_addNewAttribute (c : Class) (a : Attribute) : (addNewAttribute c a).core = c.core := by
  unfold addNewAttribute
  split <;> rfl

theorem unseen_collectAttributes (body : NodeId) :
    Unseen (collectAttributes f body) fun _ => True :=
  unseen_forM _ fun _ => unseen_forM _ fun _ => (unseen_lift _).bind fun assigned _ =>
    unseen_modifyClass fun c => core_addNewAttribute c assigned

theorem outcome_visitFunction {i : NodeId} {s mid : State} {plan : Plan}
    (hrun : (visitFunction f i).run.run s = (.ok plan, mid)) :
    Outcome f i s (.leaf fun _ => f.tree.fieldText? i "name") plan mid := by
  unfold visitFunction at hrun
  split at hrun
  · rename_i name hname
    have hnamed : f.tree.fieldText? i "name" = some (f.tree.text name) := by
      rw [SyntaxTree.fieldText?, hname]
      rfl
    refine outcome_declares hnamed (fun o ho => core_of_operationAt ho) (fun ctx o => ?_) hrun
    dsimp only
    split
    · split
      · rename_i body _
        exact .after (unseen_inFunction _ (unseen_collectAttributes body))
          fun _ _ => declaring_record o
      · exact declaring_record o
    · exact declaring_record o
  · rename_i hnone
    have hnameless : f.tree.fieldText? i "name" = none := by
      rw [SyntaxTree.fieldText?, Option.map_eq_none_iff]
      exact Option.eq_none_iff_forall_ne_some.mpr hnone
    exact outcome_skips hnameless (unseen_pure rfl) hrun

theorem unseen_visitStatement (i : NodeId) :
    Unseen (visitStatement f i) fun plan => plan = .stop := by
  refine unseen_getContext.bind fun ctx _ => ?_
  split
  · exact unseen_pure rfl
  · split
    · split
      · split
        · exact unseen_pure rfl
        · refine (unseen_lift _).bind fun assigned _ => ?_
          exact (unseen_modifyClass (by intro; rfl)).bind fun _ _ => unseen_pure rfl
      · exact unseen_pure rfl
    · exact unseen_pure rfl

theorem unseen_visitImport (i : NodeId) : Unseen (visitImport f i) fun plan => plan = .stop :=
  (unseen_lift _).bind fun imports _ =>
    (unseen_forM imports (unseen_recordImport f)).bind fun _ _ => unseen_pure rfl

/-- **Every visit does what the role of its node says.** -/
theorem obeys_visit (f : File) : Obeys (role f.tree) f (visit f) := by
  intro i s plan mid hrun
  unfold visit at hrun
  by_cases hclass : f.tree.kind i = "class_definition"
  · rw [role, if_pos hclass]
    rw [hclass] at hrun
    exact outcome_visitClass hrun
  by_cases hfunction : f.tree.kind i = "function_definition"
  · rw [role, if_neg hclass, if_pos hfunction]
    rw [hfunction] at hrun
    exact outcome_visitFunction hrun
  by_cases hsilent : f.tree.kind i = "expression_statement" ∨ f.tree.kind i = "import_statement" ∨
      f.tree.kind i = "import_from_statement"
  · rw [role, if_neg hclass, if_neg hfunction, if_pos hsilent]
    rcases hsilent with hkind | hkind | hkind
    · rw [hkind] at hrun
      exact outcome_skips rfl (unseen_visitStatement i) hrun
    · rw [hkind] at hrun
      exact outcome_skips rfl (unseen_visitImport i) hrun
    · rw [hkind] at hrun
      exact outcome_skips rfl (unseen_visitImport i) hrun
  rw [role, if_neg hclass, if_neg hfunction, if_neg hsilent]
  by_cases hmodule : f.tree.kind i = "module"
  · rw [hmodule] at hrun
    exact outcome_through (unseen_opening f i _) hrun
  · have hother : Construct.ofKind (f.tree.kind i) = .other := by
      simp only [not_or] at hsilent
      simp only [Construct.ofKind, hmodule, hclass, hfunction, hsilent, if_false]
    rw [hother] at hrun
    exact outcome_through (unseen_pure rfl) hrun

/-! ## The outline -/

theorem kind_of_opens {t : SyntaxTree} {i : NodeId} (h : role t i = .opens) :
    t.kind i = "class_definition" := by
  by_contra hkind
  rw [role, if_neg hkind] at h
  split at h
  · cases h
  · split at h <;> cases h

theorem kind_of_name {t : SyntaxTree} {i : NodeId} {inside : Bool}
    (h : ((role t i).name? inside).isSome = true) : t.kind i = "function_definition" := by
  by_contra hkind
  unfold role at h
  rw [if_neg hkind] at h
  split at h
  · rw [Role.name?_ofClass] at h
    cases h
  · split at h <;> cases h

theorem role_of_function {t : SyntaxTree} {i : NodeId} (h : t.kind i = "function_definition") :
    role t i = .leaf fun _ => t.fieldText? i "name" := by
  rw [role, h]
  rfl

theorem distinctRanges (hclasses : f.tree.DistinctSpans ["class_definition"])
    (hfunctions : f.tree.DistinctSpans ["function_definition"]) :
    DistinctRanges (role f.tree) f where
  classes := fun a b ha hb => hclasses.eq (by decide)
    (List.mem_singleton.mpr (kind_of_opens ha)) (List.mem_singleton.mpr (kind_of_opens hb))
  operations := fun inside a b ha hb => hfunctions.eq (by decide)
    (List.mem_singleton.mpr (kind_of_name ha)) (List.mem_singleton.mpr (kind_of_name hb))

/-- **The model of a Python file is its outline**, and nothing is reached below a function. The root
stands for the whole file and the body of a class for its members, whatever their kinds. -/
theorem model_follows_outline (hbuilt : f.tree.Built)
    (hclasses : f.tree.DistinctSpans ["class_definition"])
    (hfunctions : f.tree.DistinctSpans ["function_definition"]) :
    (f.path ≠ "" → ∃ m, model f = .ok m) ∧
    (∀ m, model f = .ok m → Exact (role f.tree) f m) ∧
    Outlined (role f.tree) f.tree ∧
    ∀ i j c, f.tree.kind i = "function_definition" → ¬ Entered (role f.tree) f.tree i →
      Under f.tree i j → i ≠ j → ¬ Reached (role f.tree) f.tree c j := by
  have hwell := hbuilt.wellFormed
  refine ⟨fun hpath => ?_, fun m hm => ?_, outlined hwell hbuilt.root_lt_size, ?_⟩
  · obtain ⟨m, hm, -⟩ := fileModel_of_sound ⟨hpath, hwell⟩ .python
    exact ⟨m, hm⟩
  · exact exact_of_modelOf hwell (distinctRanges hclasses hfunctions) (obeys_visit f)
      hbuilt.root_lt_size (fun s plan mid => outcome_through (unseen_opening f root _)) hm
  · intro i j c hkind hentered hunder hne
    exact not_reached_below_leaf hwell (role_of_function hkind) hentered hunder hne

/-- A source with a class in a class, each with a method, a function in a method, and a function
outside. -/
def nestedSource : String :=
  "class A:\n class B:\n  def f(): 0\n def g():\n  def h(): 0\ndef k(): 0"

/-- The nodes of `nestedSource`. -/
def nestedNodes : List SyntaxNode :=
  [nodeOf "module" none 0 65 none,
    nodeOf "class_definition" none 0 54 (some 0),
    nodeOf "identifier" (some "name") 6 7 (some 1),
    nodeOf "block" (some "body") 10 54 (some 1),
    nodeOf "class_definition" none 10 31 (some 3),
    nodeOf "identifier" (some "name") 16 17 (some 4),
    nodeOf "block" (some "body") 21 31 (some 4),
    nodeOf "function_definition" none 21 31 (some 6),
    nodeOf "identifier" (some "name") 25 26 (some 7),
    nodeOf "function_definition" none 33 54 (some 3),
    nodeOf "identifier" (some "name") 37 38 (some 9),
    nodeOf "block" (some "body") 44 54 (some 9),
    nodeOf "function_definition" none 44 54 (some 11),
    nodeOf "identifier" (some "name") 48 49 (some 12),
    nodeOf "function_definition" none 55 65 (some 0),
    nodeOf "identifier" (some "name") 59 60 (some 14)]

def nestedClasses : SyntaxTree :=
  nestedNodes.foldl SyntaxTree.attach { source := nestedSource }

/-- The inner class comes first, and the function in a method is left out. -/
theorem model_follows_outline_nestedClasses :
    nestedClasses.Built ∧ nestedClasses.DistinctSpans ["class_definition"] ∧
      nestedClasses.DistinctSpans ["function_definition"] ∧
      ∃ m, model ⟨"m.py", nestedClasses⟩ = .ok m ∧
        outlineNames m = ([("B", true, ["f"]), ("A", false, ["g"])], ["k"]) ∧
        Exact (role nestedClasses) ⟨"m.py", nestedClasses⟩ m := by
  have hbuilt : nestedClasses.Built :=
    SyntaxTree.built_attachAll (by decide +kernel) (by decide +kernel)
  have hclasses : nestedClasses.DistinctSpans ["class_definition"] := by decide +kernel
  have hfunctions : nestedClasses.DistinctSpans ["function_definition"] := by decide +kernel
  obtain ⟨hread, hexact, -⟩ :=
    model_follows_outline (f := ⟨"m.py", nestedClasses⟩) hbuilt hclasses hfunctions
  obtain ⟨m, hm⟩ := hread (by decide)
  refine ⟨hbuilt, hclasses, hfunctions, m, hm, ?_, hexact m hm⟩
  have hnames : (model ⟨"m.py", nestedClasses⟩).toOption.map outlineNames =
      some ([("B", true, ["f"]), ("A", false, ["g"])], ["k"]) := by decide +kernel
  rw [hm] at hnames
  exact Option.some.inj hnames

/-- A tree whose root is a function with another one in its body. -/
def functionAtRoot : SyntaxTree :=
  [nodeOf "function_definition" none 0 22 none,
    nodeOf "identifier" (some "name") 4 5 (some 0),
    nodeOf "block" (some "body") 11 21 (some 0),
    nodeOf "function_definition" none 11 21 (some 2),
    nodeOf "identifier" (some "name") 15 16 (some 3)].foldl
      SyntaxTree.attach { source := "def f():\n  def g(): 0\n" }

/-- The root is entered whatever its kind, so a function in the body of one can be an operation. -/
theorem function_in_root_function_recorded :
    functionAtRoot.Built ∧ functionAtRoot.DistinctSpans ["class_definition"] ∧
      functionAtRoot.DistinctSpans ["function_definition"] ∧
      functionAtRoot.kind root = "function_definition" ∧
      functionAtRoot.fieldText? root "body" = some "def g(): 0" ∧
      (model ⟨"m.py", functionAtRoot⟩).toOption.map outlineNames = some ([], ["g"]) := by
  refine ⟨SyntaxTree.built_attachAll (by decide +kernel) (by decide +kernel), ?_⟩
  exact ⟨by decide +kernel, by decide +kernel, by decide +kernel, by decide +kernel,
    by decide +kernel⟩

end Refactor.Extract.Python
