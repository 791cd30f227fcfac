import Refactor.Proofs.FileModels
import Refactor.Proofs.Linking

/-!
# What a walk puts back

A walk changes the context on its way down: it opens classes, functions, namespaces and templates.

**Theorem (`walk_restores`).** Wherever a walk starts and however it ends, with success or with an
error, the open scopes, the namespaces and the template mark are what they were. A class is open
afterwards exactly if one was open before, and it is the same class with further members at the end
of its lists. In the same way classes and operations are added to the model at the end only. In C++,
classes of the model may also have been given values for their attributes. The walk of a class puts
the visibility of members back as well.

`Restored` relates the states before and after, and `Restores` says so of an extraction from every
state. It is put together along the steps of an extraction (`Restores.bind`). What an enclosure
opens it closes again, also when what is done inside has failed (`restores_around`). This is how a
function of Python collects attributes, and it is all that the walk adds to the visits.
-/

namespace Refactor

/-! ## Members are added at the end -/

namespace LocationIndex

theorem prefix_pushUnique {α : Type} [BEq α] (index : LocationIndex) (locate : α → Location)
    (items : List α) (item : α) : items <+: (index.pushUnique locate items item).2.1 := by
  unfold pushUnique
  dsimp only
  split
  · exact List.prefix_rfl
  · exact List.prefix_append items [item]

end LocationIndex

namespace Class

/-- The second class is the first one with further members. -/
structure Grows (c c' : Class) : Prop where
  operations : c.operations <+: c'.operations
  attributes : c.attributes <+: c'.attributes
  rest : c' = { c with
    operations := c'.operations
    attributes := c'.attributes
    operationIndex := c'.operationIndex
    attributeIndex := c'.attributeIndex }

theorem Grows.refl (c : Class) : Grows c c :=
  ⟨List.prefix_rfl, List.prefix_rfl, rfl⟩

theorem Grows.trans {c c' c'' : Class} (h : Grows c c') (h' : Grows c' c'') : Grows c c'' where
  operations := h.operations.trans h'.operations
  attributes := h.attributes.trans h'.attributes
  rest := by
    rw [h'.rest, h.rest]

theorem grows_addOperation (c : Class) (o : Operation) : Grows c (c.addOperation o) where
  operations := LocationIndex.prefix_pushUnique _ _ _ _
  attributes := List.prefix_rfl
  rest := rfl

theorem grows_addAttribute (c : Class) (a : Attribute) : Grows c (c.addAttribute a) where
  operations := List.prefix_rfl
  attributes := LocationIndex.prefix_pushUnique _ _ _ _
  rest := rfl

/-- The class without the values of its attributes. -/
def withoutValues (c : Class) : Class :=
  { c with attributes := c.attributes.map fun a => { a with initialValue := none } }

end Class

/-- Giving a value to an attribute changes nothing else. -/
theorem CodeModel.withoutValues_linkInitializer (m : CodeModel) (i : StaticInitializer) :
    (m.linkInitializer i).classes.map Class.withoutValues = m.classes.map Class.withoutValues := by
  unfold linkInitializer
  cases hvalue : m.giveValue? i with
  | none => rfl
  | some m' =>
    refine (map_modifyClass? (fun c changed hchanged => ?_) hvalue).1
    obtain ⟨attributes, hattributes, rfl⟩ := Option.map_eq_some_iff.mp hchanged
    have hsame := map_modifyFirst? (g := fun a : Attribute => { a with initialValue := none })
      hattributes fun _ _ => rfl
    unfold Class.withoutValues
    rw [hsame]

namespace Extract

variable {α β : Type} {language : Language}

/-- What a language leaves unchanged of the classes that are in the model already. -/
def settledPart : Language → Class → Class
  | .cpp => Class.withoutValues
  | _ => id

/-- The second state has the scopes of the first one, and nothing but additions. -/
structure Restored (language : Language) (s s' : State) : Prop where
  scopes : s'.context.scopes = s.context.scopes
  namespaces : s'.context.namespaces = s.context.namespaces
  inTemplate : s'.context.inTemplate = s.context.inTemplate
  visibility : language ≠ .cpp → s'.context.visibility = s.context.visibility
  currentClass : Option.Rel Class.Grows s.context.currentClass s'.context.currentClass
  classes : s.model.classes.map (settledPart language) <+:
    s'.model.classes.map (settledPart language)
  operations : s.model.operations <+: s'.model.operations

theorem grows_refl_option (c : Option Class) : Option.Rel Class.Grows c c := by
  cases c with
  | none => exact .none
  | some c => exact .some (.refl c)

theorem grows_trans_option {a b c : Option Class} (h : Option.Rel Class.Grows a b)
    (h' : Option.Rel Class.Grows b c) : Option.Rel Class.Grows a c := by
  cases h with
  | none => exact h'
  | some h =>
    cases h' with
    | some h' => exact .some (h.trans h')

theorem Restored.refl (language : Language) (s : State) : Restored language s s :=
  ⟨rfl, rfl, rfl, fun _ => rfl, grows_refl_option _, List.prefix_rfl, List.prefix_rfl⟩

theorem Restored.trans {s s' s'' : State} (h : Restored language s s')
    (h' : Restored language s' s'') : Restored language s s'' where
  scopes := h'.scopes.trans h.scopes
  namespaces := h'.namespaces.trans h.namespaces
  inTemplate := h'.inTemplate.trans h.inTemplate
  visibility := fun hlanguage => (h'.visibility hlanguage).trans (h.visibility hlanguage)
  currentClass := grows_trans_option h.currentClass h'.currentClass
  classes := h.classes.trans h'.classes
  operations := h.operations.trans h'.operations

/-- The extraction puts back what it opens, from every state and whether it succeeds or fails. If it
succeeds, the result satisfies `P`. -/
def Restores (language : Language) (x : Extraction α) (P : α → Prop) : Prop :=
  ∀ s, Restored language s (x.run.run s).2 ∧ ∀ a, (x.run.run s).1 = .ok a → P a

/-- What a plan leaves to do puts back what it opens, too. -/
def Plan.Settles (language : Language) (plan : Plan) : Prop :=
  Restores language plan.after fun _ => True

variable {P : α → Prop} {Q : β → Prop}

/-! ## Steps -/

theorem restores_of_restored {x : Extraction Unit}
    (h : ∀ s, Restored language s (x.run.run s).2) : Restores language x fun _ => True :=
  fun s => ⟨h s, fun _ _ => trivial⟩

theorem restores_pure {a : α} (h : P a) : Restores language (pure a) P := by
  intro s
  refine ⟨.refl language s, ?_⟩
  rintro _ ⟨⟩
  exact h

/-- Most plans leave nothing to do. -/
theorem restores_plan {inside : List NodeId} {enclosure : Enclosure} :
    Restores language (pure { inside := inside, enclosure := enclosure })
      (Plan.Settles language) :=
  restores_pure (restores_pure trivial)

/-- After an error nothing more happens. -/
theorem run_bind_of_error {x : Extraction α} {g : α → Extraction β} {s s' : State} {e : Error}
    (h : x.run.run s = (.error e, s')) : (x >>= g).run.run s = (.error e, s') := by
  have hbind : (x >>= g).run.run s =
      (ExceptT.bindCont g (x.run.run s).1).run (x.run.run s).2 := rfl
  rw [hbind, h]
  rfl

theorem Restores.bind {x : Extraction α} {g : α → Extraction β} (h : Restores language x P)
    (hg : ∀ a, P a → Restores language (g a) Q) : Restores language (x >>= g) Q := by
  intro s
  obtain ⟨hfirst, hresult⟩ := h s
  cases hx : x.run.run s with
  | mk result mid =>
    rw [hx] at hfirst hresult
    cases result with
    | ok a =>
      obtain ⟨hsecond, hb⟩ := hg a (hresult a rfl) mid
      rw [run_bind_of_ok hx]
      exact ⟨hfirst.trans hsecond, hb⟩
    | error e =>
      rw [run_bind_of_error hx]
      exact ⟨hfirst, by rintro _ ⟨⟩⟩

theorem restores_lift (x : Except Error α) : Restores language (liftM x) fun _ => True := by
  intro s
  cases x <;> exact ⟨.refl language s, fun _ _ => trivial⟩

theorem restores_getContext : Restores language getContext fun _ => True := fun s =>
  ⟨.refl language s, fun _ _ => trivial⟩

theorem restores_forM {f : α → Extraction Unit} (items : List α)
    (hf : ∀ a, Restores language (f a) fun _ => True) :
    Restores language (items.forM f) fun _ => True := by
  induction items with
  | nil => exact restores_pure trivial
  | cons a items ih => exact (hf a).bind fun _ _ => ih

theorem restored_mapClass (s : State) {g : Class → Class} (hg : ∀ c, Class.Grows c (g c)) :
    Restored language s
      { s with context := { s.context with currentClass := s.context.currentClass.map g } } := by
  refine ⟨rfl, rfl, rfl, fun _ => rfl, ?_, List.prefix_rfl, List.prefix_rfl⟩
  cases s.context.currentClass with
  | none => exact .none
  | some c => exact .some (hg c)

theorem restores_modifyClass {g : Class → Class} (hg : ∀ c, Class.Grows c (g c)) :
    Restores language (modifyClass g) fun _ => True :=
  restores_of_restored fun s => restored_mapClass s hg

theorem restores_modifyModel {g : CodeModel → CodeModel}
    (hclasses : ∀ m : CodeModel, m.classes.map (settledPart language) <+:
      (g m).classes.map (settledPart language))
    (hoperations : ∀ m : CodeModel, m.operations <+: (g m).operations) :
    Restores language (modifyModel g) fun _ => True :=
  restores_of_restored fun s =>
    ⟨rfl, rfl, rfl, fun _ => rfl, grows_refl_option _, hclasses s.model, hoperations s.model⟩

/-- Where neither classes nor operations are touched. -/
theorem restores_modifyModel_of_eq {g : CodeModel → CodeModel}
    (hclasses : ∀ m, (g m).classes = m.classes)
    (hoperations : ∀ m, (g m).operations = m.operations) :
    Restores language (modifyModel g) fun _ => True := by
  refine restores_modifyModel (fun m => ?_) fun m => ?_
  · rw [hclasses]
  · rw [hoperations]

theorem restores_recordOperation (o : Operation) :
    Restores language (recordOperation o) fun _ => True := by
  refine restores_getContext.bind fun ctx _ => ?_
  split
  · exact restores_modifyClass fun c => c.grows_addOperation o
  · exact restores_modifyModel (fun _ => List.prefix_rfl)
      fun m => LocationIndex.prefix_pushUnique _ _ _ _

theorem restores_recordImport (f : File) (i : Import) :
    Restores language (recordImport f i) fun _ => True :=
  restores_modifyModel_of_eq (by intro; rfl) (by intro; rfl)

theorem restores_recordComments (f : File) (i : NodeId) :
    Restores language (recordComments f i) fun _ => True :=
  restores_forM _ fun node => (restores_lift (commentAt f node)).bind fun _ _ =>
    restores_modifyModel_of_eq (by intro; rfl) (by intro; rfl)

/-- A whole file is opened. -/
theorem restores_opening (f : File) (i : NodeId) (package : String) :
    Restores language (do
      modifyModel fun m => m.setPackage f.path package
      recordComments f i
      return ({ inside := f.tree.children i } : Plan)) (Plan.Settles language) :=
  (restores_modifyModel_of_eq (by intro; rfl) (by intro; rfl)).bind fun _ _ =>
    (restores_recordComments f i).bind fun _ _ => restores_plan

/-! ## Enclosures -/

/-- Leaving an enclosure undoes what entering it did to the context. -/
theorem restored_leave (e : Enclosure) {s inner : State}
    (h : Restored language (e.opened s) inner) :
    Restored language s { inner with context := (e.leave s.context inner.context).2 } := by
  cases e with
  | plain => exact h
  | functionBody name =>
    have hopened : inner.context.scopes = .functionBody name :: s.context.scopes := h.scopes
    have hleft : inner.context.leaveFunction =
        { inner.context with scopes := s.context.scopes } := by
      rw [Context.leaveFunction, hopened]
    change Restored language s { inner with context := inner.context.leaveFunction }
    rw [hleft]
    exact ⟨rfl, h.namespaces, h.inTemplate, h.visibility, h.currentClass, h.classes, h.operations⟩
  | namespaceBody name =>
    refine ⟨h.scopes, ?_, h.inTemplate, h.visibility, h.currentClass, h.classes, h.operations⟩
    have hopened : inner.context.namespaces = name :: s.context.namespaces := h.namespaces
    change inner.context.namespaces.tail = s.context.namespaces
    rw [hopened, List.tail_cons]
  | templateBody =>
    exact ⟨h.scopes, h.namespaces, rfl, h.visibility, h.currentClass, h.classes, h.operations⟩
  | classBody opened members finish =>
    refine ⟨?_, h.namespaces, rfl, fun _ => rfl, grows_refl_option _, h.classes, h.operations⟩
    have hopened : inner.context.scopes = .classBody opened.name :: s.context.scopes := h.scopes
    change (inner.context.leaveClass s.context.currentClass).2.scopes = s.context.scopes
    rw [Context.leaveClass, hopened]

theorem run_around_of_error {e : Enclosure} {body : Extraction Unit} {s inner : State}
    {error : Error} (h : body.run.run (e.opened s) = (.error error, inner)) :
    (e.around body).run.run s =
      (.error error, { inner with context := (e.leave s.context inner.context).2 }) := by
  unfold Enclosure.opened at h
  unfold Enclosure.around
  simp only [ExceptT.run_mk, StateT.run] at h ⊢
  rw [h]

/-- However what is done inside ends, the context is put back. -/
theorem context_around (e : Enclosure) (body : Extraction Unit) (s : State) :
    ((e.around body).run.run s).2.context =
      (e.leave s.context (body.run.run (e.opened s)).2.context).2 := by
  cases hbody : body.run.run (e.opened s) with
  | mk result inner =>
    cases result with
    | ok value => rw [Enclosure.run_around hbody, Enclosure.closed]
    | error error => rw [run_around_of_error hbody]

/-- After what is done inside, the model gains a finished class or stays. -/
theorem model_around (e : Enclosure) (body : Extraction Unit) (s : State) :
    ((e.around body).run.run s).2.model = (body.run.run (e.opened s)).2.model ∨
      ∃ c, ((e.around body).run.run s).2.model =
        (body.run.run (e.opened s)).2.model.addClass c := by
  cases hbody : body.run.run (e.opened s) with
  | mk result inner =>
    cases result with
    | ok value =>
      rw [Enclosure.run_around hbody, Enclosure.closed]
      cases (e.leave s.context inner.context).1 with
      | none => exact .inl rfl
      | some c => exact .inr ⟨c, rfl⟩
    | error error =>
      rw [run_around_of_error hbody]
      exact .inl rfl

/-- What an enclosure opens it closes again, also when something inside has failed. -/
theorem restores_around (e : Enclosure) {body : Extraction Unit}
    (h : Restores language body fun _ => True) :
    Restores language (e.around body) fun _ => True := by
  refine restores_of_restored fun s => ?_
  have hinner := restored_leave e (h (e.opened s)).1
  have hmodel : (body.run.run (e.opened s)).2.model.classes <+:
      ((e.around body).run.run s).2.model.classes ∧
      ((e.around body).run.run s).2.model.operations =
        (body.run.run (e.opened s)).2.model.operations := by
    rcases model_around e body s with hsame | ⟨c, hadded⟩
    · rw [hsame]
      exact ⟨List.prefix_rfl, rfl⟩
    · rw [hadded]
      exact ⟨LocationIndex.prefix_pushUnique _ _ _ _, rfl⟩
  rw [← context_around] at hinner
  refine ⟨hinner.scopes, hinner.namespaces, hinner.inTemplate, hinner.visibility,
    hinner.currentClass, hinner.classes.trans (hmodel.1.map _), ?_⟩
  rw [hmodel.2]
  exact hinner.operations

theorem restores_walk {visit : NodeId → Extraction Plan}
    (hvisit : ∀ i, Restores language (visit i) (Plan.Settles language)) (depth : Nat)
    (i : NodeId) : Restores language (walk visit depth i) fun _ => True := by
  induction depth generalizing i with
  | zero => exact restores_pure trivial
  | succ depth ih =>
    refine (hvisit i).bind fun plan hplan => ?_
    have hinside := restores_forM plan.inside fun j => ih j
    exact (restores_around plan.enclosure hinside).bind fun _ _ => hplan

/-! ## Visits -/

section

variable (f : File) (i : NodeId)

namespace Python

theorem restores_visitClass : Restores language (visitClass f i) (Plan.Settles language) := by
  unfold visitClass
  split
  · exact restores_getContext.bind fun _ _ => (restores_lift _).bind fun _ _ => restores_plan
  · exact restores_plan

theorem grows_addNewAttribute (c : Class) (a : Attribute) :
    Class.Grows c (addNewAttribute c a) := by
  unfold addNewAttribute
  split
  · exact .refl c
  · exact c.grows_addAttribute a

theorem restores_collectAttributes (body : NodeId) :
    Restores language (collectAttributes f body) fun _ => True :=
  restores_forM _ fun _ => restores_forM _ fun _ => (restores_lift _).bind fun assigned _ =>
    restores_modifyClass fun c => grows_addNewAttribute c assigned

theorem restores_visitFunction : Restores language (visitFunction f i) (Plan.Settles language) := by
  unfold visitFunction
  split
  · refine restores_getContext.bind fun ctx _ => ?_
    refine (restores_lift _).bind fun operation _ => ?_
    have hrecord : Restores language (do recordOperation operation; pure Plan.stop)
        (Plan.Settles language) :=
      (restores_recordOperation operation).bind fun _ _ => restores_plan
    split
    · split
      · rename_i body _
        -- The scope of the function is closed even if an attribute has no location.
        exact (restores_around _ (restores_collectAttributes f body)).bind fun _ _ => hrecord
      · exact hrecord
    · exact hrecord
  · exact restores_plan

theorem restores_visitStatement :
    Restores language (visitStatement f i) (Plan.Settles language) := by
  refine restores_getContext.bind fun ctx _ => ?_
  split
  · exact restores_plan
  · split
    · split
      · split
        · exact restores_plan
        · exact (restores_lift _).bind fun assigned _ =>
            (restores_modifyClass fun c => c.grows_addAttribute _).bind fun _ _ => restores_plan
      · exact restores_plan
    · exact restores_plan

theorem restores_visit : Restores language (visit f i) (Plan.Settles language) := by
  have himport : Restores language (visitImport f i) (Plan.Settles language) :=
    (restores_lift _).bind fun imports _ =>
      (restores_forM imports (restores_recordImport f)).bind fun _ _ => restores_plan
  unfold visit
  split
  · exact restores_opening f i _
  · exact restores_visitClass f i
  · exact restores_visitFunction f i
  · exact restores_visitStatement f i
  · exact himport
  · exact himport
  · exact restores_plan

end Python

namespace JavaScript

theorem restores_visitClass : Restores language (visitClass f i) (Plan.Settles language) := by
  unfold visitClass
  split
  · exact restores_getContext.bind fun _ _ => (restores_lift _).bind fun _ _ => restores_plan
  · exact restores_plan

theorem restores_visitFunction : Restores language (visitFunction f i) (Plan.Settles language) := by
  unfold visitFunction
  split
  · refine restores_getContext.bind fun ctx _ => ?_
    refine (restores_lift _).bind fun operation _ => ?_
    exact (restores_recordOperation operation).bind fun _ _ => restores_plan
  · exact restores_plan

theorem restores_visitField : Restores language (visitField f i) (Plan.Settles language) := by
  unfold visitField
  dsimp only
  split
  · exact (restores_lift _).bind fun _ _ =>
      (restores_modifyClass fun c => c.grows_addAttribute _).bind fun _ _ => restores_plan
  · exact restores_plan

theorem restores_recordClause (source : String) (location : Location) :
    Restores language (recordClause f source location i) fun _ => True := by
  unfold recordClause
  dsimp only
  split
  · exact restores_recordImport f _
  · split
    · exact restores_recordImport f _
    · split
      · exact restores_forM _ fun _ => restores_forM _ fun _ => (restores_lift _).bind fun _ _ =>
          restores_recordImport f _
      · exact restores_pure trivial

theorem restores_visitImport : Restores language (visitImport f i) (Plan.Settles language) := by
  unfold visitImport
  dsimp only
  split
  · refine (restores_lift _).bind fun location _ => ?_
    split
    · exact (restores_recordImport f _).bind fun _ _ => restores_plan
    · exact (restores_forM _ fun part => restores_recordClause f part _ location).bind fun _ _ =>
        restores_plan
  · exact restores_plan

theorem restores_visit : Restores language (visit f i) (Plan.Settles language) := by
  have hwhen : ∀ x y : Extraction Plan, Restores language x (Plan.Settles language) →
      Restores language y (Plan.Settles language) →
      Restores language (do if (← getContext).inClass then x else y) (Plan.Settles language) := by
    intro x y hx hy
    refine restores_getContext.bind fun ctx _ => ?_
    split
    · exact hx
    · exact hy
  unfold visit
  split
  · exact restores_opening f i _
  · exact restores_visitClass f i
  · exact hwhen _ _ (restores_visitFunction f i) (restores_plan)
  · exact hwhen _ _ (restores_plan) (restores_visitFunction f i)
  · exact hwhen _ _ (restores_plan) (restores_visitFunction f i)
  · exact restores_visitField f i
  · exact restores_visitImport f i
  · exact restores_plan

end JavaScript

namespace Cpp

theorem restores_visitClass : Restores language (visitClass f i) (Plan.Settles language) := by
  unfold visitClass
  dsimp only
  split
  · exact restores_getContext.bind fun _ _ => (restores_lift _).bind fun _ _ => restores_plan
  · exact restores_plan

theorem restores_recordDeclared (function : NodeId) :
    Restores language (recordDeclared f i function) fun _ => True :=
  restores_getContext.bind fun _ _ => (restores_lift _).bind fun _ _ =>
    restores_forM _ restores_recordOperation

theorem restores_visitFunction : Restores language (visitFunction f i) (Plan.Settles language) := by
  unfold visitFunction
  dsimp only
  split
  · refine restores_getContext.bind fun ctx _ => ?_
    refine (restores_lift _).bind fun operation _ => ?_
    exact (restores_forM _ fun _ => restores_recordOperation _).bind fun _ _ => restores_plan
  · exact restores_plan

/-- A value for a static member may reach a class that is in the model already. -/
theorem restores_linkInitializer (value : StaticInitializer) :
    Restores .cpp (modifyModel fun m => m.linkInitializer value) fun _ => True := by
  refine restores_modifyModel (fun m => ?_) fun m => ?_
  · change m.classes.map Class.withoutValues <+:
      (m.linkInitializer value).classes.map Class.withoutValues
    rw [m.withoutValues_linkInitializer value]
  · rw [(CodeModel.keeps_linkInitializer m value).2]

theorem restores_visitDeclarator (declarator : NodeId) :
    Restores .cpp (visitDeclarator f i declarator) fun _ => True := by
  unfold visitDeclarator
  dsimp only
  split
  · refine restores_getContext.bind fun ctx _ => ?_
    split
    · exact restores_forM _ restores_linkInitializer
    · exact restores_pure trivial
  · exact restores_forM _ (restores_recordDeclared f i)

theorem restores_recordMember (declarator : NodeId) :
    Restores language (recordMember f i declarator) fun _ => True := by
  unfold recordMember
  split
  · exact restores_recordDeclared f i _
  · refine restores_getContext.bind fun ctx _ => ?_
    refine (restores_lift _).bind fun field _ => ?_
    exact restores_forM _ fun a => restores_modifyClass fun c => c.grows_addAttribute a

theorem restores_recordMembers : Restores language (recordMembers f i) fun _ => True := by
  refine restores_getContext.bind fun ctx _ => ?_
  split
  · exact restores_forM _ (restores_recordMember f i)
  · exact restores_pure trivial

/-- An access specifier changes the visibility and nothing else. -/
theorem restores_visitAccess : Restores .cpp (visitAccess f i) (Plan.Settles .cpp) := by
  refine (restores_forM _ fun visibility => restores_of_restored fun s => ?_).bind
    fun _ _ => restores_plan
  exact ⟨rfl, rfl, rfl, fun hlanguage => absurd rfl hlanguage, grows_refl_option _,
    List.prefix_rfl, List.prefix_rfl⟩

theorem restores_visitInclude : Restores language (visitInclude f i) (Plan.Settles language) := by
  unfold visitInclude
  split
  · exact (restores_lift _).bind fun _ _ =>
      (restores_recordImport f _).bind fun _ _ => restores_plan
  · exact restores_plan

theorem restores_visitNamespace :
    Restores language (pure (visitNamespace f i)) (Plan.Settles language) := by
  unfold visitNamespace
  split <;> exact restores_plan

theorem restores_visit : Restores .cpp (visit f i) (Plan.Settles .cpp) := by
  unfold visit
  split
  · exact restores_opening f i _
  · exact restores_visitNamespace f i
  · exact restores_visitClass f i
  · exact restores_visitClass f i
  · exact restores_visitFunction f i
  · exact (restores_forM _ (restores_visitDeclarator f i)).bind fun _ _ => restores_plan
  · exact restores_pure (restores_recordMembers f i)
  · exact restores_visitAccess f i
  · exact restores_visitInclude f i
  · exact restores_plan
  · exact restores_plan

end Cpp

theorem restores_visitOf (language : Language) :
    Restores language (visitOf language f i) (Plan.Settles language) := by
  cases language with
  | python => exact Python.restores_visit f i
  | javaScript => exact JavaScript.restores_visit f i
  | cpp => exact Cpp.restores_visit f i

end

/-! ## The visibility of members -/

/-- A class that is visited changes nothing yet; its body is left to the walk. -/
theorem Cpp.run_visitClass (f : File) (i : NodeId) (s : State) :
    ∃ result, (visitClass f i).run.run s = (result, s) ∧ ∀ plan, result = .ok plan →
      plan = .stop ∨ ∃ inside opened members finish,
        plan = { inside := inside, enclosure := .classBody opened members finish } := by
  unfold visitClass
  dsimp only
  split
  · cases f.locate i .classDeclaration with
    | error error => exact ⟨.error error, rfl, fun _ hplan => by cases hplan⟩
    | ok location =>
      refine ⟨_, rfl, fun plan hplan => .inr ?_⟩
      rw [← Except.ok.inj hplan]
      exact ⟨_, _, _, _, rfl⟩
  · exact ⟨.ok .stop, rfl, fun plan hplan => .inl (Except.ok.inj hplan).symm⟩

theorem Cpp.visibility_walk_of_class {f : File} {i : NodeId} (hvisit : visit f i = visitClass f i)
    (depth : Nat) (s : State) :
    ((walk (visit f) depth i).run.run s).2.context.visibility = s.context.visibility := by
  cases depth with
  | zero => rfl
  | succ depth =>
    obtain ⟨result, hrun, hplan⟩ := run_visitClass f i s
    rw [walk, hvisit]
    cases result with
    | error error => rw [run_bind_of_error hrun]
    | ok plan =>
      rw [run_bind_of_ok hrun]
      rcases hplan plan rfl with rfl | ⟨inside, opened, members, finish, rfl⟩
      · rfl
      · rw [Plan.follow_eq_around rfl, context_around]
        rfl

theorem visibility_walk_of_class (language : Language) {f : File} {i : NodeId}
    (hkind : f.tree.kind i = "class_specifier" ∨ f.tree.kind i = "struct_specifier") (depth : Nat)
    (s : State) :
    ((walk (visitOf language f) depth i).run.run s).2.context.visibility =
      s.context.visibility := by
  have hrestored := (restores_walk (restores_visitOf f · language) depth i s).1
  cases language with
  | python => exact hrestored.visibility (by decide)
  | javaScript => exact hrestored.visibility (by decide)
  | cpp =>
    refine Cpp.visibility_walk_of_class ?_ depth s
    unfold Cpp.visit
    rcases hkind with hkind | hkind
    · rw [hkind]
      rfl
    · rw [hkind]
      rfl

/-- **A walk puts back what it opens, and adds at the end only**, from every state and at every
node, whether it succeeds or fails. -/
theorem walk_restores (language : Language) (f : File) (depth : Nat) (i : NodeId) (s : State) :
    Restored language s ((walk (visitOf language f) depth i).run.run s).2 ∧
      (f.tree.kind i = "class_specifier" ∨ f.tree.kind i = "struct_specifier" →
        ((walk (visitOf language f) depth i).run.run s).2.context.visibility =
          s.context.visibility) :=
  ⟨(restores_walk (restores_visitOf f · language) depth i s).1,
    fun hkind => visibility_walk_of_class language hkind depth s⟩

/-- A class in a namespace, such as `namespace n {class A{public:};}`. -/
def namespacedClass : SyntaxTree :=
  [nodeOf "translation_unit" none 0 31 none,
    nodeOf "namespace_definition" none 0 31 (some 0),
    nodeOf "namespace_identifier" (some "name") 10 11 (some 1),
    nodeOf "declaration_list" (some "body") 12 31 (some 1),
    nodeOf "class_specifier" none 13 29 (some 3),
    nodeOf "type_identifier" (some "name") 19 20 (some 4),
    nodeOf "field_declaration_list" (some "body") 20 29 (some 4),
    nodeOf "access_specifier" none 21 27 (some 6)].foldl
      SyntaxTree.attach { source := "namespace n {class A{public:};}" }

/-- Where a walk may start: in a namespace, among protected members. -/
def amongProtected : State :=
  { context := { namespaces := ["m"], visibility := .protectedAccess } }

/-- Without a name for the file the walk fails inside of the namespace. With one, the class is
recorded, and its access specifier has no effect on what follows. -/
theorem walk_restores_namespacedClass :
    let failed := (walk (visitOf .cpp ⟨"", namespacedClass⟩) 8 1).run.run amongProtected
    let succeeded := (walk (visitOf .cpp ⟨"a.cpp", namespacedClass⟩) 8 4).run.run amongProtected
    failed.1.toOption = none ∧ Restored .cpp amongProtected failed.2 ∧
      succeeded.2.model.classes.map Class.name = ["A"] ∧
      Restored .cpp amongProtected succeeded.2 ∧
      namespacedClass.kind 4 = "class_specifier" ∧
      succeeded.2.context.visibility = amongProtected.context.visibility := by
  have hkind : namespacedClass.kind 4 = "class_specifier" := by decide +kernel
  obtain ⟨hfailed, -⟩ := walk_restores .cpp ⟨"", namespacedClass⟩ 8 1 amongProtected
  obtain ⟨hsucceeded, hvisibility⟩ :=
    walk_restores .cpp ⟨"a.cpp", namespacedClass⟩ 8 4 amongProtected
  exact ⟨by decide +kernel, hfailed, by decide +kernel, hsucceeded, hkind,
    hvisibility (.inl hkind)⟩

end Extract

end Refactor
