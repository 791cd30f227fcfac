import Refactor.Extract.Model
import Refactor.Proofs.Traversal

/-!
# Visits never fail

A visit fails only where a location does, and a location fails only for a file without a name or a
node that ends before it starts. In a sound file neither happens, so every part of a visit
succeeds, whatever is missing from the tree. What a visit leads on to are children, or children of
a child, of the node that is visited.

The main results are `Python.yields_visit`, `JavaScript.yields_visit` and `Cpp.yields_visit`.
-/

namespace Refactor.Extract

/-- A file with a name and a well-formed tree. -/
structure File.Sound (f : File) : Prop where
  path_ne : f.path ≠ ""
  tree : f.tree.WellFormed

variable {f : File}

/-! ## What all languages share -/

theorem succeeds_locate (h : f.Sound) (i : NodeId) (kind : ElementKind) :
    Succeeds (f.locate i kind) := by
  have hspan := h.tree.startPoint_le_stopPoint i
  refine ⟨⟨f.path, f.tree.startPoint i, f.tree.stopPoint i, kind, h.path_ne, hspan⟩, ?_⟩
  rw [File.locate, Location.new, dif_neg h.path_ne, dif_pos hspan]

theorem yields_modifyClass (g : Class → Class) : Yields (modifyClass g) fun _ => True :=
  yields_modifyContext _

theorem yields_recordOperation (o : Operation) : Yields (recordOperation o) fun _ => True := by
  refine yields_getContext.bind fun ctx _ => ?_
  split
  · exact yields_modifyClass _
  · exact yields_modifyModel _

theorem yields_recordImport (i : Import) : Yields (recordImport f i) fun _ => True :=
  yields_modifyModel _

theorem yields_recordComments (h : f.Sound) (i : NodeId) :
    Yields (recordComments f i) fun _ => True := by
  refine yields_forM _ fun node => ?_
  have hcomment : Succeeds (commentAt f node) :=
    (succeeds_locate h node _).bind fun _ => succeeds_ok _
  exact (yields_lift hcomment).bind fun comment _ => yields_modifyModel _

/-! ## Plans -/

theorem forward_stop (i : NodeId) : Plan.stop.Forward f.tree i :=
  ⟨fun _ hj => absurd hj List.not_mem_nil, yields_pure trivial⟩

theorem mem_children_of_childInField? {t : SyntaxTree} {i child : NodeId} {field : String}
    (h : t.childInField? i field = some child) : child ∈ t.children i :=
  List.mem_of_find?_eq_some h

theorem forward_children (h : f.Sound) (i : NodeId) (e : Enclosure) :
    Plan.Forward f.tree i { inside := f.tree.children i, enclosure := e } :=
  ⟨fun _ hj => h.tree.lt_of_mem_children hj, yields_pure trivial⟩

/-- Going two levels down also leads forward. -/
theorem forward_children_of_child (h : f.Sound) {i child : NodeId}
    (hchild : child ∈ f.tree.children i) (e : Enclosure) :
    Plan.Forward f.tree i { inside := f.tree.children child, enclosure := e } where
  leads j hj := by
    obtain ⟨hbehind, hsize⟩ := h.tree.lt_of_mem_children hj
    exact ⟨Nat.lt_trans (h.tree.lt_of_mem_children hchild).1 hbehind, hsize⟩
  finishes := yields_pure trivial

/-! ## Steps that visits have in common -/

/-- A whole file is opened: its package, its comments, then everything in it. -/
theorem yields_opening (h : f.Sound) (i : NodeId) (package : String) :
    Yields (do
      modifyModel fun m => m.setPackage f.path package
      recordComments f i
      return { inside := f.tree.children i }) (Plan.Forward f.tree i) :=
  (yields_modifyModel _).bind fun _ _ =>
    (yields_recordComments h i).bind fun _ _ => yields_pure (forward_children h i _)

theorem yields_stop (i : NodeId) : Yields (return Plan.stop) (Plan.Forward f.tree i) :=
  yields_pure (forward_stop i)

theorem yields_recordImports (i : NodeId) (imports : List Import) :
    Yields (do imports.forM (recordImport f); return Plan.stop) (Plan.Forward f.tree i) :=
  (yields_forM imports fun _ => yields_recordImport _).bind fun _ _ => yields_stop i

/-! ## Python -/

namespace Python

theorem succeeds_annotationAt (h : f.Sound) (i : NodeId) : Succeeds (annotationAt f i) := by
  unfold annotationAt
  dsimp only
  split
  · refine (succeeds_locate h i _).bind fun _ => ?_
    split
    · split <;> exact succeeds_ok _
    · exact succeeds_ok _
  · exact succeeds_ok _

theorem succeeds_decorators (h : f.Sound) (i : NodeId) : Succeeds (decorators f i) := by
  unfold decorators
  split
  · split
    · exact succeeds_collect _ (succeeds_annotationAt h)
    · exact succeeds_ok _
  · exact succeeds_ok _

theorem succeeds_docstring (h : f.Sound) (body : NodeId) : Succeeds (docstring f body) := by
  unfold docstring
  dsimp only
  split
  · split
    · exact succeeds_ok _
    · split
      · rename_i string _
        split
        · exact succeeds_ok _
        · exact (succeeds_locate h string _).bind fun _ => succeeds_ok _
      · exact succeeds_ok _
  · exact succeeds_ok _

theorem succeeds_parametersFrom (h : f.Sound) (keywordOnly : Bool) (nodes : List NodeId) :
    Succeeds (parametersFrom f keywordOnly nodes) := by
  induction nodes generalizing keywordOnly with
  | nil => exact succeeds_ok _
  | cons i rest ih =>
    rw [parametersFrom]
    split
    · exact ih true
    · split
      · exact ih keywordOnly
      · exact (succeeds_locate h i _).bind fun _ =>
          (ih keywordOnly).bind fun _ => succeeds_ok _

theorem succeeds_parametersOf (h : f.Sound) (function : NodeId) :
    Succeeds (parametersOf f function) := by
  unfold parametersOf
  split
  · exact succeeds_parametersFrom h false _
  · exact succeeds_ok _

theorem succeeds_attributeAt (h : f.Sound) (assignment : NodeId) (name : String) :
    Succeeds (attributeAt f assignment name) :=
  (succeeds_locate h assignment _).bind fun _ => succeeds_ok _

theorem yields_collectAttributes (h : f.Sound) (body : NodeId) :
    Yields (collectAttributes f body) fun _ => True :=
  yields_forM _ fun assignment => yields_forM _ fun name =>
    (yields_lift (succeeds_attributeAt h assignment name)).bind fun _ _ => yields_modifyClass _

theorem succeeds_classAt (h : f.Sound) (ctx : Context) (i name body : NodeId) :
    Succeeds (classAt f ctx i name body) :=
  (succeeds_locate h i _).bind fun _ =>
    (succeeds_decorators h i).bind fun _ =>
      (succeeds_docstring h body).bind fun _ => succeeds_ok _

theorem succeeds_operationAt (h : f.Sound) (ctx : Context) (i name : NodeId) :
    Succeeds (operationAt f ctx i name) := by
  refine (succeeds_locate h i _).bind fun _ => ?_
  refine (succeeds_decorators h i).bind fun _ => ?_
  refine (succeeds_parametersOf h i).bind fun _ => ?_
  dsimp only
  split
  · exact (succeeds_docstring h _).bind fun _ => succeeds_ok _
  · exact succeeds_ok _

theorem succeeds_plainImports (h : f.Sound) (i : NodeId) : Succeeds (plainImports f i) :=
  succeeds_mapM _ fun clause => (succeeds_locate h clause _).bind fun _ => succeeds_ok _

theorem succeeds_importsFrom (h : f.Sound) (i source : NodeId) :
    Succeeds (importsFrom f i source) := by
  unfold importsFrom
  dsimp only
  split
  · rename_i star _
    refine (succeeds_locate h star _).bind fun _ => ?_
    refine (succeeds_mapM _ fun clause => ?_).bind fun _ => succeeds_ok _
    exact (succeeds_locate h clause _).bind fun _ => succeeds_ok _
  · refine (succeeds_mapM _ fun clause => ?_).bind fun _ => succeeds_ok _
    exact (succeeds_locate h clause _).bind fun _ => succeeds_ok _

theorem succeeds_importsAt (h : f.Sound) (i : NodeId) : Succeeds (importsAt f i) := by
  unfold importsAt
  split
  · exact succeeds_plainImports h i
  · split
    · exact succeeds_importsFrom h i _
    · exact succeeds_ok _

theorem yields_visitModule (h : f.Sound) (i : NodeId) :
    Yields (visitModule f i) (Plan.Forward f.tree i) :=
  yields_opening h i _

theorem yields_visitClass (h : f.Sound) (i : NodeId) :
    Yields (visitClass f i) (Plan.Forward f.tree i) := by
  unfold visitClass
  split
  · rename_i name body _ hbody
    refine yields_getContext.bind fun ctx _ => ?_
    refine (yields_lift (succeeds_classAt h ctx i name body)).bind fun _ _ => ?_
    exact yields_pure (forward_children_of_child h (mem_children_of_childInField? hbody) _)
  · exact yields_stop i

theorem yields_visitFunction (h : f.Sound) (i : NodeId) :
    Yields (visitFunction f i) (Plan.Forward f.tree i) := by
  unfold visitFunction
  split
  · rename_i name _
    refine yields_getContext.bind fun ctx _ => ?_
    refine (yields_lift (succeeds_operationAt h ctx i name)).bind fun operation _ => ?_
    have hrecord : Yields (do recordOperation operation; pure Plan.stop)
        (Plan.Forward f.tree i) :=
      (yields_recordOperation operation).bind fun _ _ => yields_stop i
    split
    · split
      · rename_i body _
        exact (yields_around _ (yields_collectAttributes h body)).bind fun _ _ => hrecord
      · exact hrecord
    · exact hrecord
  · exact yields_stop i

theorem yields_visitStatement (h : f.Sound) (i : NodeId) :
    Yields (visitStatement f i) (Plan.Forward f.tree i) := by
  refine yields_getContext.bind fun ctx _ => ?_
  split
  · exact yields_stop i
  · split
    · rename_i assignment _
      split
      · split
        · exact yields_stop i
        · exact (yields_lift (succeeds_attributeAt h assignment _)).bind fun assigned _ =>
            (yields_modifyClass _).bind fun _ _ => yields_stop i
      · exact yields_stop i
    · exact yields_stop i

theorem yields_visitImport (h : f.Sound) (i : NodeId) :
    Yields (visitImport f i) (Plan.Forward f.tree i) :=
  (yields_lift (succeeds_importsAt h i)).bind fun imports _ => yields_recordImports i imports

/-- **Every visit succeeds and leads forward.** -/
theorem yields_visit (h : f.Sound) (i : NodeId) :
    Yields (visit f i) (Plan.Forward f.tree i) := by
  unfold visit
  split
  · exact yields_visitModule h i
  · exact yields_visitClass h i
  · exact yields_visitFunction h i
  · exact yields_visitStatement h i
  · exact yields_visitImport h i
  · exact yields_visitImport h i
  · exact yields_pure (forward_children h i _)

end Python

/-! ## JavaScript -/

namespace JavaScript

theorem succeeds_annotationAt (h : f.Sound) (i : NodeId) : Succeeds (annotationAt f i) := by
  unfold annotationAt
  dsimp only
  split
  · refine (succeeds_locate h i _).bind fun _ => ?_
    split <;> exact succeeds_ok _
  · exact succeeds_ok _

theorem succeeds_decorators (h : f.Sound) (i : NodeId) : Succeeds (decorators f i) :=
  succeeds_collect _ (succeeds_annotationAt h)

theorem succeeds_parameterAt (h : f.Sound) (i : NodeId) : Succeeds (parameterAt f i) := by
  unfold parameterAt
  split
  · exact succeeds_ok _
  · exact (succeeds_locate h i _).bind fun _ => succeeds_ok _

theorem succeeds_parametersOf (h : f.Sound) (function : NodeId) :
    Succeeds (parametersOf f function) := by
  unfold parametersOf
  split
  · rename_i single _
    exact (succeeds_locate h single _).bind fun _ => succeeds_ok _
  · split
    · exact succeeds_collect _ (succeeds_parameterAt h)
    · exact succeeds_ok _

theorem succeeds_classAt (h : f.Sound) (ctx : Context) (i name : NodeId) :
    Succeeds (classAt f ctx i name) :=
  (succeeds_locate h i _).bind fun _ => (succeeds_decorators h i).bind fun _ => succeeds_ok _

theorem succeeds_operationAt (h : f.Sound) (ctx : Context) (i : NodeId) (name : String) :
    Succeeds (operationAt f ctx i name) :=
  (succeeds_locate h i _).bind fun _ =>
    (succeeds_decorators h i).bind fun _ =>
      (succeeds_parametersOf h i).bind fun _ => succeeds_ok _

theorem yields_recordSpecifier (h : f.Sound) (source : String) (i : NodeId) :
    Yields (recordSpecifier f source i) fun _ => True :=
  yields_forM _ fun _ => (yields_lift (succeeds_locate h i _)).bind fun _ _ =>
    yields_recordImport _

theorem yields_recordClause (h : f.Sound) (source : String) (location : Location) (i : NodeId) :
    Yields (recordClause f source location i) fun _ => True := by
  unfold recordClause
  dsimp only
  split
  · exact yields_recordImport _
  · split
    · exact yields_recordImport _
    · split
      · exact yields_forM _ (yields_recordSpecifier h source)
      · exact yields_pure trivial

theorem yields_visitProgram (h : f.Sound) (i : NodeId) :
    Yields (visitProgram f i) (Plan.Forward f.tree i) :=
  yields_opening h i _

theorem yields_visitClass (h : f.Sound) (i : NodeId) :
    Yields (visitClass f i) (Plan.Forward f.tree i) := by
  unfold visitClass
  split
  · rename_i name body _ hbody
    refine yields_getContext.bind fun ctx _ => ?_
    refine (yields_lift (succeeds_classAt h ctx i name)).bind fun _ _ => ?_
    exact yields_pure (forward_children_of_child h (mem_children_of_childInField? hbody) _)
  · exact yields_stop i

theorem yields_visitFunction (h : f.Sound) (i : NodeId) :
    Yields (visitFunction f i) (Plan.Forward f.tree i) := by
  unfold visitFunction
  split
  · refine yields_getContext.bind fun ctx _ => ?_
    refine (yields_lift (succeeds_operationAt h ctx i _)).bind fun operation _ => ?_
    exact (yields_recordOperation operation).bind fun _ _ => yields_stop i
  · exact yields_stop i

theorem yields_visitField (h : f.Sound) (i : NodeId) :
    Yields (visitField f i) (Plan.Forward f.tree i) := by
  unfold visitField
  dsimp only
  split
  · exact (yields_lift (succeeds_locate h i _)).bind fun _ _ =>
      (yields_modifyClass _).bind fun _ _ => yields_stop i
  · exact yields_stop i

theorem yields_visitImport (h : f.Sound) (i : NodeId) :
    Yields (visitImport f i) (Plan.Forward f.tree i) := by
  unfold visitImport
  dsimp only
  split
  · refine (yields_lift (succeeds_locate h i _)).bind fun location _ => ?_
    split
    · exact (yields_recordImport _).bind fun _ _ => yields_stop i
    · exact (yields_forM _ (yields_recordClause h _ location)).bind fun _ _ => yields_stop i
  · exact yields_stop i

/-- **Every visit succeeds and leads forward.** -/
theorem yields_visit (h : f.Sound) (i : NodeId) :
    Yields (visit f i) (Plan.Forward f.tree i) := by
  -- Whether a class is open decides if a function counts, and nothing else.
  have hwhen : ∀ x y : Extraction Plan, Yields x (Plan.Forward f.tree i) →
      Yields y (Plan.Forward f.tree i) →
      Yields (do if (← getContext).inClass then x else y) (Plan.Forward f.tree i) := by
    intro x y hx hy
    refine yields_getContext.bind fun ctx _ => ?_
    split
    · exact hx
    · exact hy
  unfold visit
  split
  · exact yields_visitProgram h i
  · exact yields_visitClass h i
  · exact hwhen _ _ (yields_visitFunction h i) (yields_stop i)
  · exact hwhen _ _ (yields_stop i) (yields_visitFunction h i)
  · exact hwhen _ _ (yields_stop i) (yields_visitFunction h i)
  · exact yields_visitField h i
  · exact yields_visitImport h i
  · exact yields_pure (forward_children h i _)

end JavaScript

/-! ## C++ -/

namespace Cpp

theorem succeeds_parameterAt (h : f.Sound) (i : NodeId) : Succeeds (parameterAt f i) := by
  unfold parameterAt
  dsimp only
  split
  · split
    · exact succeeds_ok _
    · exact (succeeds_locate h i _).bind fun _ => succeeds_ok _
  · exact succeeds_ok _

theorem succeeds_parametersOf (h : f.Sound) (function : NodeId) :
    Succeeds (parametersOf f function) := by
  unfold parametersOf
  split
  · exact succeeds_collect _ (succeeds_parameterAt h)
  · exact succeeds_ok _

theorem succeeds_operationAt (h : f.Sound) (ctx : Context) (i function : NodeId) :
    Succeeds (operationAt f ctx i function) := by
  unfold operationAt
  dsimp only
  split
  · split
    · exact succeeds_ok _
    · exact (succeeds_locate h i _).bind fun _ =>
        (succeeds_parametersOf h function).bind fun _ => succeeds_ok _
  · exact succeeds_ok _

theorem succeeds_fieldAt (h : f.Sound) (ctx : Context) (i declarator : NodeId) :
    Succeeds (fieldAt f ctx i declarator) := by
  unfold fieldAt
  dsimp only
  split
  · exact (succeeds_locate h i _).bind fun _ => succeeds_ok _
  · exact succeeds_ok _

theorem yields_visitUnit (h : f.Sound) (i : NodeId) :
    Yields (visitUnit f i) (Plan.Forward f.tree i) :=
  yields_opening h i _

theorem forward_visitNamespace (h : f.Sound) (i : NodeId) :
    (visitNamespace f i).Forward f.tree i := by
  unfold visitNamespace
  split
  · exact forward_stop i
  · rename_i body hbody
    exact forward_children_of_child h (mem_children_of_childInField? hbody) _

theorem yields_visitClass (h : f.Sound) (i : NodeId) :
    Yields (visitClass f i) (Plan.Forward f.tree i) := by
  unfold visitClass
  dsimp only
  split
  · rename_i name body _ hbody
    refine yields_getContext.bind fun ctx _ => ?_
    refine (yields_lift (succeeds_locate h i _)).bind fun _ _ => ?_
    exact yields_pure (forward_children_of_child h (mem_children_of_childInField? hbody) _)
  · exact yields_stop i

theorem yields_recordDeclared (h : f.Sound) (i function : NodeId) :
    Yields (recordDeclared f i function) fun _ => True :=
  yields_getContext.bind fun ctx _ =>
    (yields_lift (succeeds_operationAt h ctx i function)).bind fun _ _ =>
      yields_forM _ yields_recordOperation

theorem yields_visitFunction (h : f.Sound) (i : NodeId) :
    Yields (visitFunction f i) (Plan.Forward f.tree i) := by
  unfold visitFunction
  dsimp only
  split
  · rename_i function _
    refine yields_getContext.bind fun ctx _ => ?_
    refine (yields_lift (succeeds_operationAt h ctx i function)).bind fun _ _ => ?_
    exact (yields_forM _ fun _ => yields_recordOperation _).bind fun _ _ =>
      yields_stop i
  · exact yields_stop i

theorem yields_visitDeclarator (h : f.Sound) (i declarator : NodeId) :
    Yields (visitDeclarator f i declarator) fun _ => True := by
  unfold visitDeclarator
  dsimp only
  split
  · refine yields_getContext.bind fun ctx _ => ?_
    split
    · exact yields_forM _ fun _ => yields_modifyModel _
    · exact yields_pure trivial
  · exact yields_forM _ (yields_recordDeclared h i)

theorem yields_visitDeclaration (h : f.Sound) (i : NodeId) :
    Yields (visitDeclaration f i) (Plan.Forward f.tree i) :=
  (yields_forM _ (yields_visitDeclarator h i)).bind fun _ _ =>
    yields_pure (forward_children h i _)

theorem yields_recordMember (h : f.Sound) (i declarator : NodeId) :
    Yields (recordMember f i declarator) fun _ => True := by
  unfold recordMember
  split
  · exact yields_recordDeclared h i _
  · refine yields_getContext.bind fun ctx _ => ?_
    refine (yields_lift (succeeds_fieldAt h ctx i declarator)).bind fun _ _ => ?_
    exact yields_forM _ fun _ => yields_modifyClass _

theorem yields_recordMembers (h : f.Sound) (i : NodeId) :
    Yields (recordMembers f i) fun _ => True := by
  refine yields_getContext.bind fun ctx _ => ?_
  split
  · exact yields_forM _ (yields_recordMember h i)
  · exact yields_pure trivial

/-- A class that is the type of a field is a child of the field's declaration. -/
theorem forward_visitField (h : f.Sound) (i : NodeId) : (visitField f i).Forward f.tree i where
  leads j hj := by
    obtain ⟨hchild, -⟩ := Option.filter_eq_some_iff.mp (Option.mem_toList.mp hj)
    exact h.tree.lt_of_mem_children (mem_children_of_childInField? hchild)
  finishes := yields_recordMembers h i

theorem yields_visitAccess (i : NodeId) : Yields (visitAccess f i) (Plan.Forward f.tree i) :=
  (yields_forM _ fun _ => yields_modifyContext _).bind fun _ _ => yields_stop i

theorem yields_visitInclude (h : f.Sound) (i : NodeId) :
    Yields (visitInclude f i) (Plan.Forward f.tree i) := by
  unfold visitInclude
  split
  · exact (yields_lift (succeeds_locate h i _)).bind fun _ _ =>
      (yields_recordImport _).bind fun _ _ => yields_stop i
  · exact yields_stop i

/-- **Every visit succeeds and leads forward.** -/
theorem yields_visit (h : f.Sound) (i : NodeId) :
    Yields (visit f i) (Plan.Forward f.tree i) := by
  unfold visit
  split
  · exact yields_visitUnit h i
  · exact yields_pure (forward_visitNamespace h i)
  · exact yields_visitClass h i
  · exact yields_visitClass h i
  · exact yields_visitFunction h i
  · exact yields_visitDeclaration h i
  · exact yields_pure (forward_visitField h i)
  · exact yields_visitAccess i
  · exact yields_visitInclude h i
  · exact yields_pure (forward_children h i _)
  · exact yields_pure (forward_children h i _)

end Cpp

end Refactor.Extract
