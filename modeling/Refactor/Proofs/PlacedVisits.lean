import Refactor.Proofs.Placement
import Refactor.Proofs.Traversal
import Refactor.Extract.Model

/-!
# Visits place what they record

Locations come in where a class is opened, where an operation, an attribute, a parameter, a
decorator, an import or a comment is read off a node, and nowhere else. `Places` says that an
extraction which succeeds has placed all that it brought in. It holds of every visit in every
language (`places_visit`), and of a walk if it holds of the visits (`places_walk`). The class that
is open counts as well, since it joins the model when its body has been walked.

A node that is located is a node of the table, even if nothing is known of the tree: it was picked
by its kind, by its field or as a named node, and what is not in the table has none of these.
-/

namespace Refactor.Extract

/-! ## Extractions -/

variable {α : Type} {language : Language} {f : File}

/-- The model and the open class are placed in the file. -/
structure State.Placed (language : Language) (f : File) (s : State) : Prop where
  model : s.model.Placed language f
  currentClass : ∀ c, s.context.currentClass = some c → c.Placed f

/-- If the extraction succeeds, all that has come in is placed, and the result satisfies `P`. -/
abbrev Places (language : Language) (f : File) (x : Extraction α) (P : α → Prop) : Prop :=
  Preserves (State.Placed language f) x P

theorem places_getContext : Places language f getContext fun _ => True :=
  preserves_getContext fun _ _ => trivial

theorem places_modifyContext {g : Context → Context}
    (hg : ∀ ctx, (g ctx).currentClass = ctx.currentClass) :
    Places language f (modifyContext g) fun _ => True := by
  intro s _ _ hs hrun
  cases hrun
  refine ⟨⟨hs.model, ?_⟩, trivial⟩
  intro c hc
  exact hs.currentClass c ((hg s.context).symm.trans hc)

theorem places_modifyClass {g : Class → Class} (hg : ∀ c, c.Placed f → (g c).Placed f) :
    Places language f (modifyClass g) fun _ => True := by
  intro s _ _ hs hrun
  cases hrun
  refine ⟨⟨hs.model, ?_⟩, trivial⟩
  intro changed hchanged
  obtain ⟨c, hc, rfl⟩ := Option.map_eq_some_iff.mp hchanged
  exact hg c (hs.currentClass c hc)

theorem places_modifyModel {g : CodeModel → CodeModel}
    (hg : ∀ m, m.Placed language f → (g m).Placed language f) :
    Places language f (modifyModel g) fun _ => True := by
  intro s _ _ hs hrun
  cases hrun
  exact ⟨⟨hg s.model hs.model, hs.currentClass⟩, trivial⟩

theorem places_recordOperation {o : Operation} (ho : o.Placed f)
    (hunowned : language ≠ .cpp → o.className = none) :
    Places language f (recordOperation o) fun _ => True := by
  refine places_getContext.bind fun ctx _ => ?_
  split
  · exact places_modifyClass fun _ hc => hc.addOperation ho
  · exact places_modifyModel fun _ hm => hm.addOperation ho hunowned

theorem places_recordImport {i : Import} (hi : f.Locates i.location) :
    Places language f (recordImport f i) fun _ => True :=
  places_modifyModel fun _ hm => hm.addImport hi

/-! ## The walk -/

/-- A class that is opened is placed, and its last touch leaves it so. -/
def Enclosure.Placed (f : File) : Enclosure → Prop
  | .classBody opened _ finish => opened.Placed f ∧ ∀ c, c.Placed f → (finish c).Placed f
  | _ => True

/-- The plan opens placed classes only, and what it leaves to do keeps everything placed. -/
structure Plan.Placed (language : Language) (f : File) (plan : Plan) : Prop where
  enclosure : plan.enclosure.Placed f
  after : Places language f plan.after fun _ => True

theorem Enclosure.Placed.opened {e : Enclosure} (he : e.Placed f) {s : State}
    (hs : s.Placed language f) : (e.opened s).Placed language f := by
  refine ⟨hs.model, ?_⟩
  intro c hc
  cases e with
  | classBody opened members finish =>
    obtain rfl := Option.some.inj hc
    exact he.1
  | _ => exact hs.currentClass c hc

/-- A finished class joins the model. -/
theorem Enclosure.model_closed {e : Enclosure} {s inner : State} {finished : Option Class}
    (h : (e.leave s.context inner.context).1 = finished) :
    (e.closed s inner).model = finished.elim inner.model inner.model.addClass := by
  unfold Enclosure.closed
  dsimp only
  rw [h]
  cases finished <;> rfl

theorem Enclosure.Placed.closed {e : Enclosure} (he : e.Placed f) {s inner : State}
    (hs : s.Placed language f) (hinner : inner.Placed language f) :
    (e.closed s inner).Placed language f := by
  cases e with
  | classBody opened members finish =>
    refine ⟨?_, hs.currentClass⟩
    rw [Enclosure.model_closed rfl]
    change ((inner.context.currentClass.map finish).elim inner.model
      inner.model.addClass).Placed language f
    cases hfinished : inner.context.currentClass with
    | none => exact hinner.model
    | some c => exact hinner.model.addClass (he.2 c (hinner.currentClass c hfinished))
  | functionBody name =>
    obtain ⟨scopes, hclosed⟩ := closed_functionBody name s inner
    rw [hclosed]
    exact ⟨hinner.model, hinner.currentClass⟩
  | _ => exact ⟨hinner.model, hinner.currentClass⟩

theorem places_around {e : Enclosure} (he : e.Placed f) {body : Extraction Unit}
    (hbody : Places language f body fun _ => True) :
    Places language f (e.around body) fun _ => True := by
  intro s _ s' hs hrun
  obtain ⟨inner, hinner, rfl⟩ := exists_of_run_around hrun
  exact ⟨he.closed hs (hbody _ _ _ (he.opened hs) hinner).1, trivial⟩

theorem Plan.Placed.follow {plan : Plan} (hplan : plan.Placed language f)
    {walkNode : NodeId → Extraction Unit}
    (hwalk : ∀ i, Places language f (walkNode i) fun _ => True) :
    Places language f (plan.follow walkNode) fun _ => True :=
  (places_around hplan.enclosure (preserves_forM fun i _ => hwalk i)).bind fun _ _ => hplan.after

theorem places_walk {visit : NodeId → Extraction Plan}
    (hvisit : ∀ i, Places language f (visit i) (Plan.Placed language f)) (depth : Nat)
    (i : NodeId) : Places language f (walk visit depth i) fun _ => True := by
  induction depth generalizing i with
  | zero => exact preserves_pure trivial
  | succ depth ih =>
    exact (hvisit i).bind fun plan hplan => hplan.follow ih

theorem places_follow (t : SyntaxTree) {visit : NodeId → Extraction Plan}
    (hvisit : ∀ i, Places language f (visit i) (Plan.Placed language f)) {plan : Plan}
    (hplan : plan.Placed language f) : Places language f (follow t visit plan) fun _ => True :=
  hplan.follow fun i => places_walk hvisit t.size i

/-! ## Steps that visits have in common -/

variable {i : NodeId}

theorem gives_locate (hi : i < f.tree.size) (kind : ElementKind) :
    Gives (f.locate i kind) f.Locates := fun _ h =>
  File.locates_of_locate hi h

/-- Comments are picked by their kind, so they are nodes of the table. -/
theorem places_recordComments (i : NodeId) :
    Places language f (recordComments f i) fun _ => True := by
  refine preserves_forM fun node hnode => ?_
  have hcomment : Gives (commentAt f node) fun c => f.Locates c.location :=
    (gives_locate (SyntaxTree.lt_size_of_mem_filter (by decide) hnode) _).bind fun _ hlocation =>
      gives_ok hlocation
  exact (preserves_lift hcomment).bind fun _ hc => places_modifyModel fun _ hm => hm.addComment hc

/-- Most plans leave nothing to do. -/
theorem places_plan {inside : List NodeId} {enclosure : Enclosure} (h : enclosure.Placed f) :
    Places language f (pure { inside := inside, enclosure := enclosure })
      (Plan.Placed language f) :=
  preserves_pure ⟨h, preserves_pure trivial⟩

theorem places_stop : Places language f (return Plan.stop) (Plan.Placed language f) :=
  places_plan trivial

/-- A node that is anything in particular has a kind, so it is in the table. -/
theorem lt_size_of_construct {γ : Type} (ofKind : String → γ) {construct : γ}
    (h : ofKind (f.tree.kind i) = construct) (hnone : ofKind "" ≠ construct) :
    i < f.tree.size := by
  refine SyntaxTree.lt_size_of_kind fun hkind => hnone ?_
  rw [← h, hkind]

/-- A whole file is opened. -/
theorem places_opening (i : NodeId) (package : String) :
    Places language f (do
      modifyModel fun m => m.setPackage f.path package
      recordComments f i
      return { inside := f.tree.children i }) (Plan.Placed language f) := by
  refine (places_modifyModel fun _ hm => hm.setPackage _ _).bind fun _ _ => ?_
  exact (places_recordComments i).bind fun _ _ => places_plan trivial

/-! ## Python -/

namespace Python

theorem gives_annotationAt (hi : i < f.tree.size) :
    Gives (annotationAt f i) fun found => ∀ a ∈ found, f.Locates a.location := by
  unfold annotationAt
  dsimp only
  split
  · refine (gives_locate hi _).bind fun location hlocation => ?_
    split
    · split
      · exact gives_ok (by simpa using hlocation)
      · exact gives_ok (by simp)
    · exact gives_ok (by simpa using hlocation)
  · exact gives_ok (by simp)

theorem gives_decorators (i : NodeId) :
    Gives (decorators f i) fun found => ∀ a ∈ found, f.Locates a.location := by
  unfold decorators
  split
  · split
    · exact gives_collect fun _ hnode =>
        gives_annotationAt (SyntaxTree.lt_size_of_mem_filter (by decide) hnode)
    · exact gives_ok (by simp)
  · exact gives_ok (by simp)

theorem gives_docstring (body : NodeId) :
    Gives (docstring f body) fun found => ∀ c ∈ found, f.Locates c.location := by
  unfold docstring
  dsimp only
  split
  · split
    · exact gives_ok (by simp)
    · split
      · rename_i string _
        by_cases hkind : f.tree.kind string = "string"
        · have hstring : f.tree.kind string ≠ "" := hkind ▸ by decide
          rw [if_neg (not_not_intro hkind)]
          exact (gives_locate (SyntaxTree.lt_size_of_kind hstring) _).bind fun location hlocation =>
            gives_ok (by simpa using hlocation)
        · rw [if_pos hkind]
          exact gives_ok (by simp)
      · exact gives_ok (by simp)
  · exact gives_ok (by simp)

theorem gives_parametersFrom (keywordOnly : Bool) {nodes : List NodeId}
    (hnodes : ∀ i ∈ nodes, i < f.tree.size) :
    Gives (parametersFrom f keywordOnly nodes) fun found => ∀ p ∈ found, p.Placed f := by
  induction nodes generalizing keywordOnly with
  | nil => exact gives_ok (by simp)
  | cons i rest ih =>
    rw [List.forall_mem_cons] at hnodes
    rw [parametersFrom]
    split
    · exact ih true hnodes.2
    · split
      · exact ih keywordOnly hnodes.2
      · refine (gives_locate hnodes.1 _).bind fun location hlocation => ?_
        refine (ih keywordOnly hnodes.2).bind fun others hothers => gives_ok ?_
        exact List.forall_mem_cons.mpr ⟨Parameter.placed_of_location hlocation rfl, hothers⟩

theorem gives_parametersOf (function : NodeId) :
    Gives (parametersOf f function) fun found => ∀ p ∈ found, p.Placed f := by
  unfold parametersOf
  split
  · exact gives_parametersFrom false fun _ hnode => SyntaxTree.lt_size_of_mem_namedChildren hnode
  · exact gives_ok (by simp)

theorem gives_classAt {ctx : Context} {name body : NodeId} (hi : i < f.tree.size) :
    Gives (classAt f ctx i name body) (Class.Placed f) := by
  refine (gives_locate hi _).bind fun location hlocation => ?_
  refine (gives_decorators i).bind fun annotations hannotations => ?_
  refine (gives_docstring body).bind fun comment hcomment => gives_ok ?_
  have hopened : ∀ opened : Class, opened.Placed f → ∀ isAbstract,
      Class.Placed f { opened with isAbstract := isAbstract } := fun _ hc _ => { hc with }
  refine Class.Placed.addComments (Class.Placed.addAnnotations (hopened _ ?_ _) hannotations) ?_
  · exact Class.Placed.addSuperclasses (Class.placed_of_location hlocation ⟨rfl, rfl, rfl, rfl⟩) _
  · exact fun c hc => hcomment c (Option.mem_toList.mp hc)

/-- Decorators change marks, and they are placed themselves. -/
theorem placed_decorate {o : Operation} (ho : o.Placed f) {a : Annotation}
    (ha : f.Locates a.location) : (decorate o a).Placed f := by
  unfold decorate Operation.addAnnotation
  dsimp only
  split
  · exact { ho with annotations := forall_mem_appendNew ho.annotations ha }
  · split
    · exact { ho with annotations := forall_mem_appendNew ho.annotations ha }
    · exact { ho with annotations := forall_mem_appendNew ho.annotations ha }

theorem className_decorate (o : Operation) (a : Annotation) :
    (decorate o a).className = o.className := by
  unfold decorate
  dsimp only
  split
  · rfl
  · split <;> rfl

theorem gives_operationAt {ctx : Context} {name : NodeId} (hi : i < f.tree.size) :
    Gives (operationAt f ctx i name) fun o => o.Placed f ∧ o.className = none := by
  refine (gives_locate hi _).bind fun location hlocation => ?_
  refine (gives_decorators i).bind fun annotations hannotations => ?_
  refine (gives_parametersOf i).bind fun parameters hparameters => ?_
  have hoperation : ∀ (o : Operation) (comment : Option Comment), o.Placed f →
      o.className = none → (∀ c ∈ comment, f.Locates c.location) →
      (comment.toList.foldl Operation.addComment (annotations.foldl decorate o)).Placed f ∧
        (comment.toList.foldl Operation.addComment (annotations.foldl decorate o)).className =
          none := by
    intro o comment ho hunowned hcomment
    refine ⟨Operation.Placed.addComments ?_ fun c hc => hcomment c (Option.mem_toList.mp hc), ?_⟩
    · exact List.foldlRecOn (motive := Operation.Placed f) _ _ ho fun _ ho a ha =>
        placed_decorate ho (hannotations a ha)
    · rw [foldl_keeps (g := Operation.className) (by intros; rfl),
        foldl_keeps (g := Operation.className) className_decorate, hunowned]
  dsimp only
  split
  · refine (gives_docstring _).bind fun comment hcomment => gives_ok ?_
    exact hoperation _ comment ⟨hlocation, hparameters, by simp, by simp⟩ rfl hcomment
  · refine gives_ok ?_
    exact hoperation _ none ⟨hlocation, hparameters, by simp, by simp⟩ rfl (by simp)

theorem gives_attributeAt {name : String} (hi : i < f.tree.size) :
    Gives (attributeAt f i name) (Attribute.Placed f) :=
  (gives_locate hi _).bind fun _ hlocation =>
    gives_ok (Attribute.placed_of_location hlocation ⟨rfl, rfl⟩)

theorem placed_addNewAttribute {c : Class} (hc : c.Placed f) {a : Attribute} (ha : a.Placed f) :
    (addNewAttribute c a).Placed f := by
  unfold addNewAttribute
  split
  · exact hc
  · exact hc.addAttribute ha

theorem places_collectAttributes (body : NodeId) :
    Places language f (collectAttributes f body) fun _ => True := by
  refine preserves_forM fun assignment hassignment => preserves_forM fun name _ => ?_
  have hsize : assignment < f.tree.size :=
    SyntaxTree.lt_size_of_mem_filter (by decide) hassignment
  exact (preserves_lift (gives_attributeAt hsize)).bind fun _ ha =>
    places_modifyClass fun _ hc => placed_addNewAttribute hc ha

theorem places_visitClass (hi : i < f.tree.size) :
    Places language f (visitClass f i) (Plan.Placed language f) := by
  unfold visitClass
  split
  · refine places_getContext.bind fun ctx _ => ?_
    refine (preserves_lift (gives_classAt hi)).bind fun opened hopened => ?_
    exact places_plan ⟨hopened, fun _ hc => { hc with }⟩
  · exact places_stop

theorem places_visitFunction (hi : i < f.tree.size) :
    Places language f (visitFunction f i) (Plan.Placed language f) := by
  unfold visitFunction
  split
  · refine places_getContext.bind fun ctx _ => ?_
    refine (preserves_lift (gives_operationAt hi)).bind fun operation hoperation => ?_
    have hrecord : Places language f (do recordOperation operation; pure Plan.stop)
        (Plan.Placed language f) :=
      (places_recordOperation hoperation.1 fun _ => hoperation.2).bind fun _ _ => places_stop
    split
    · split
      · rename_i body _
        refine (places_around ?_ (places_collectAttributes body)).bind fun _ _ => hrecord
        trivial
      · exact hrecord
    · exact hrecord
  · exact places_stop

theorem places_visitStatement (i : NodeId) :
    Places language f (visitStatement f i) (Plan.Placed language f) := by
  refine places_getContext.bind fun ctx _ => ?_
  split
  · exact places_stop
  · split
    · rename_i assignment hassignment
      have hsize : assignment < f.tree.size :=
        SyntaxTree.lt_size_of_childOfKind? (by decide) hassignment
      split
      · split
        · exact places_stop
        · refine (preserves_lift (gives_attributeAt hsize)).bind fun a ha => ?_
          refine (places_modifyClass fun _ hc => hc.addAttribute ?_).bind fun _ _ => places_stop
          exact { ha with }
      · exact places_stop
    · exact places_stop

theorem gives_clauses {g : NodeId → Location → Import}
    (hg : ∀ clause l, (g clause l).location = l) :
    Gives ((f.tree.childrenInField i "name").mapM fun clause => do
      let location ← f.locate clause .importDeclaration
      return g clause location) fun found => ∀ imported ∈ found, f.Locates imported.location := by
  refine gives_mapM fun clause hclause => ?_
  refine (gives_locate (SyntaxTree.lt_size_of_mem_childrenInField hclause) _).bind
    fun location hlocation => gives_ok ?_
  rw [hg]
  exact hlocation

theorem gives_importsFrom (i source : NodeId) :
    Gives (importsFrom f i source) fun found =>
      ∀ imported ∈ found, f.Locates imported.location := by
  unfold importsFrom
  dsimp only
  split
  · rename_i star hstar
    have hsize : star < f.tree.size := SyntaxTree.lt_size_of_childOfKind? (by decide) hstar
    refine (gives_locate hsize _).bind fun location hlocation => ?_
    refine (gives_clauses (by intros; rfl)).bind fun named hnamed => gives_ok ?_
    exact List.forall_mem_cons.mpr ⟨hlocation, hnamed⟩
  · exact (gives_clauses (by intros; rfl)).bind fun named hnamed => gives_ok hnamed

theorem gives_importsAt (i : NodeId) :
    Gives (importsAt f i) fun found => ∀ imported ∈ found, f.Locates imported.location := by
  unfold importsAt
  split
  · exact gives_clauses (by intros; rfl)
  · split
    · exact gives_importsFrom i _
    · exact gives_ok (by simp)

theorem places_visit (i : NodeId) : Places language f (visit f i) (Plan.Placed language f) := by
  have himport : Places language f (visitImport f i) (Plan.Placed language f) :=
    (preserves_lift (gives_importsAt i)).bind fun _ himports =>
      (preserves_forM fun i hi => places_recordImport (himports i hi)).bind fun _ _ => places_stop
  unfold visit
  split
  · exact places_opening i _
  · exact places_visitClass (lt_size_of_construct Construct.ofKind ‹_› (by decide))
  · exact places_visitFunction (lt_size_of_construct Construct.ofKind ‹_› (by decide))
  · exact places_visitStatement i
  · exact himport
  · exact himport
  · exact places_plan trivial

end Python

/-! ## JavaScript -/

namespace JavaScript

theorem gives_annotationAt (hi : i < f.tree.size) :
    Gives (annotationAt f i) fun found => ∀ a ∈ found, f.Locates a.location := by
  unfold annotationAt
  dsimp only
  split
  · refine (gives_locate hi _).bind fun location hlocation => ?_
    split
    · exact gives_ok (by simpa using hlocation)
    · exact gives_ok (by simpa using hlocation)
  · exact gives_ok (by simp)

theorem gives_decorators (i : NodeId) :
    Gives (decorators f i) fun found => ∀ a ∈ found, f.Locates a.location :=
  gives_collect fun _ hnode =>
    gives_annotationAt (SyntaxTree.lt_size_of_mem_filter (by decide) hnode)

theorem gives_parameterAt (hi : i < f.tree.size) :
    Gives (parameterAt f i) fun found => ∀ p ∈ found, p.Placed f := by
  unfold parameterAt
  split
  · exact gives_ok (by simp)
  · refine (gives_locate hi _).bind fun location hlocation => gives_ok ?_
    simpa using Parameter.placed_of_location hlocation rfl

theorem gives_parametersOf (function : NodeId) :
    Gives (parametersOf f function) fun found => ∀ p ∈ found, p.Placed f := by
  unfold parametersOf
  split
  · rename_i single hsingle
    refine (gives_locate (SyntaxTree.lt_size_of_childInField? hsingle) _).bind
      fun location hlocation => gives_ok ?_
    exact List.forall_mem_singleton.mpr (Parameter.placed_of_location hlocation rfl)
  · split
    · exact gives_collect fun _ hnode =>
        gives_parameterAt (SyntaxTree.lt_size_of_mem_namedChildren hnode)
    · exact gives_ok (by simp)

theorem gives_classAt {ctx : Context} {name : NodeId} (hi : i < f.tree.size) :
    Gives (classAt f ctx i name) (Class.Placed f) := by
  refine (gives_locate hi _).bind fun location hlocation => ?_
  refine (gives_decorators i).bind fun annotations hannotations => gives_ok ?_
  refine Class.Placed.addAnnotations (Class.Placed.addSuperclasses ?_ _) hannotations
  exact Class.placed_of_location hlocation ⟨rfl, rfl, rfl, rfl⟩

theorem gives_operationAt {ctx : Context} {name : String} (hi : i < f.tree.size) :
    Gives (operationAt f ctx i name) fun o => o.Placed f ∧ o.className = none := by
  refine (gives_locate hi _).bind fun location hlocation => ?_
  refine (gives_decorators i).bind fun annotations hannotations => ?_
  refine (gives_parametersOf i).bind fun parameters hparameters => gives_ok ⟨?_, ?_⟩
  · exact Operation.Placed.addAnnotations ⟨hlocation, hparameters, by simp, by simp⟩ hannotations
  · rw [foldl_keeps (g := Operation.className) (by intros; rfl)]

theorem places_visitClass (hi : i < f.tree.size) :
    Places language f (visitClass f i) (Plan.Placed language f) := by
  unfold visitClass
  split
  · refine places_getContext.bind fun ctx _ => ?_
    refine (preserves_lift (gives_classAt hi)).bind fun opened hopened => ?_
    exact places_plan ⟨hopened, fun _ hc => hc⟩
  · exact places_stop

theorem places_visitFunction (hi : i < f.tree.size) :
    Places language f (visitFunction f i) (Plan.Placed language f) := by
  unfold visitFunction
  split
  · refine places_getContext.bind fun ctx _ => ?_
    refine (preserves_lift (gives_operationAt hi)).bind fun operation hoperation => ?_
    exact (places_recordOperation hoperation.1 fun _ => hoperation.2).bind fun _ _ => places_stop
  · exact places_stop

theorem places_visitField (hi : i < f.tree.size) :
    Places language f (visitField f i) (Plan.Placed language f) := by
  unfold visitField
  dsimp only
  split
  · refine (preserves_lift (gives_locate hi _)).bind fun location hlocation => ?_
    refine (places_modifyClass fun _ hc => hc.addAttribute ?_).bind fun _ _ => places_stop
    exact Attribute.placed_of_location hlocation ⟨rfl, rfl⟩
  · exact places_stop

theorem places_recordSpecifier {source : String} (hi : i < f.tree.size) :
    Places language f (recordSpecifier f source i) fun _ => True :=
  preserves_forM fun _ _ => (preserves_lift (gives_locate hi _)).bind fun _ hlocation =>
    places_recordImport hlocation

theorem places_recordClause {source : String} {location : Location} (hlocation : f.Locates location)
    (i : NodeId) : Places language f (recordClause f source location i) fun _ => True := by
  unfold recordClause
  dsimp only
  split
  · exact places_recordImport hlocation
  · split
    · exact places_recordImport hlocation
    · split
      · exact preserves_forM fun _ hnode =>
          places_recordSpecifier (SyntaxTree.lt_size_of_mem_filter (by decide) hnode)
      · exact preserves_pure trivial

theorem places_visitImport (hi : i < f.tree.size) :
    Places language f (visitImport f i) (Plan.Placed language f) := by
  unfold visitImport
  dsimp only
  split
  · refine (preserves_lift (gives_locate hi _)).bind fun location hlocation => ?_
    split
    · exact (places_recordImport hlocation).bind fun _ _ => places_stop
    · exact (preserves_forM fun part _ => places_recordClause hlocation part).bind
        fun _ _ => places_stop
  · exact places_stop

theorem places_visit (i : NodeId) : Places language f (visit f i) (Plan.Placed language f) := by
  unfold visit
  split
  · exact places_opening i _
  · exact places_visitClass (lt_size_of_construct Construct.ofKind ‹_› (by decide))
  · refine places_getContext.bind fun ctx _ => ?_
    split
    · exact places_visitFunction (lt_size_of_construct Construct.ofKind ‹_› (by decide))
    · exact places_stop
  · refine places_getContext.bind fun ctx _ => ?_
    split
    · exact places_stop
    · exact places_visitFunction (lt_size_of_construct Construct.ofKind ‹_› (by decide))
  · refine places_getContext.bind fun ctx _ => ?_
    split
    · exact places_stop
    · exact places_visitFunction (lt_size_of_construct Construct.ofKind ‹_› (by decide))
  · exact places_visitField (lt_size_of_construct Construct.ofKind ‹_› (by decide))
  · exact places_visitImport (lt_size_of_construct Construct.ofKind ‹_› (by decide))
  · exact places_plan trivial

end JavaScript

/-! ## C++ -/

namespace Cpp

theorem gives_parameterAt (hi : i < f.tree.size) :
    Gives (parameterAt f i) fun found => ∀ p ∈ found, p.Placed f := by
  unfold parameterAt
  dsimp only
  split
  · split
    · exact gives_ok (by simp)
    · refine (gives_locate hi _).bind fun location hlocation => gives_ok ?_
      simpa using Parameter.placed_of_location hlocation rfl
  · exact gives_ok (by simp)

theorem gives_parametersOf (function : NodeId) :
    Gives (parametersOf f function) fun found => ∀ p ∈ found, p.Placed f := by
  unfold parametersOf
  split
  · exact gives_collect fun _ hnode =>
      gives_parameterAt (SyntaxTree.lt_size_of_mem_namedChildren hnode)
  · exact gives_ok (by simp)

theorem gives_operationAt {ctx : Context} {function : NodeId} (hi : i < f.tree.size) :
    Gives (operationAt f ctx i function) fun found => ∀ o ∈ found, o.Placed f := by
  unfold operationAt
  dsimp only
  split
  · split
    · exact gives_ok (by simp)
    · refine (gives_locate hi _).bind fun location hlocation => ?_
      refine (gives_parametersOf function).bind fun parameters hparameters => gives_ok ?_
      intro o ho
      obtain rfl := Option.some.inj ho
      exact ⟨hlocation, hparameters, by simp, by simp⟩
  · exact gives_ok (by simp)

theorem gives_fieldAt {ctx : Context} {declarator : NodeId} (hi : i < f.tree.size) :
    Gives (fieldAt f ctx i declarator) fun found => ∀ a ∈ found, a.Placed f := by
  unfold fieldAt
  dsimp only
  split
  · refine (gives_locate hi _).bind fun location hlocation => gives_ok ?_
    simpa using Attribute.placed_of_location hlocation ⟨rfl, rfl⟩
  · exact gives_ok (by simp)

theorem places_visitNamespace (i : NodeId) :
    Places language f (pure (visitNamespace f i)) (Plan.Placed language f) := by
  unfold visitNamespace
  split
  · exact places_stop
  · refine places_plan ?_
    split <;> trivial

theorem places_visitClass (hi : i < f.tree.size) :
    Places language f (visitClass f i) (Plan.Placed language f) := by
  unfold visitClass
  dsimp only
  split
  · refine places_getContext.bind fun ctx _ => ?_
    refine (preserves_lift (gives_locate hi _)).bind fun location hlocation => ?_
    refine places_plan ⟨Class.Placed.addSuperclasses ?_ _, fun _ hc => { hc with }⟩
    exact Class.placed_of_location hlocation ⟨rfl, rfl, rfl, rfl⟩
  · exact places_stop

theorem places_recordDeclared (hi : i < f.tree.size) (function : NodeId) :
    Places .cpp f (recordDeclared f i function) fun _ => True := by
  refine places_getContext.bind fun ctx _ => ?_
  refine (preserves_lift (gives_operationAt hi)).bind fun operation hoperation => ?_
  exact preserves_forM fun o ho =>
    places_recordOperation (hoperation o (Option.mem_toList.mp ho)) fun hne => absurd rfl hne

theorem places_visitFunction (hi : i < f.tree.size) :
    Places .cpp f (visitFunction f i) (Plan.Placed .cpp f) := by
  unfold visitFunction
  dsimp only
  split
  · refine places_getContext.bind fun ctx _ => ?_
    refine (preserves_lift (gives_operationAt hi)).bind fun operation hoperation => ?_
    refine (preserves_forM fun o ho => ?_).bind fun _ _ => places_stop
    have hplaced := hoperation o (Option.mem_toList.mp ho)
    exact places_recordOperation { hplaced with } fun hne => absurd rfl hne
  · exact places_stop

theorem places_visitDeclarator (hi : i < f.tree.size) (declarator : NodeId) :
    Places .cpp f (visitDeclarator f i declarator) fun _ => True := by
  unfold visitDeclarator
  dsimp only
  split
  · refine places_getContext.bind fun ctx _ => ?_
    split
    · exact preserves_forM fun value _ => places_modifyModel fun _ hm => hm.linkInitializer value
    · exact preserves_pure trivial
  · exact preserves_forM fun function _ => places_recordDeclared hi function

theorem places_recordMember (hi : i < f.tree.size) (declarator : NodeId) :
    Places .cpp f (recordMember f i declarator) fun _ => True := by
  unfold recordMember
  split
  · exact places_recordDeclared hi _
  · refine places_getContext.bind fun ctx _ => ?_
    refine (preserves_lift (gives_fieldAt hi)).bind fun field hfield => ?_
    exact preserves_forM fun a ha => places_modifyClass fun _ hc =>
      hc.addAttribute (hfield a (Option.mem_toList.mp ha))

theorem places_recordMembers (hi : i < f.tree.size) :
    Places .cpp f (recordMembers f i) fun _ => True := by
  refine places_getContext.bind fun ctx _ => ?_
  split
  · exact preserves_forM fun declarator _ => places_recordMember hi declarator
  · exact preserves_pure trivial

theorem places_visitInclude (hi : i < f.tree.size) :
    Places language f (visitInclude f i) (Plan.Placed language f) := by
  unfold visitInclude
  split
  · refine (preserves_lift (gives_locate hi _)).bind fun location hlocation => ?_
    exact (places_recordImport hlocation).bind fun _ _ => places_stop
  · exact places_stop

theorem places_visit (i : NodeId) : Places .cpp f (visit f i) (Plan.Placed .cpp f) := by
  unfold visit
  split
  · exact places_opening i _
  · exact places_visitNamespace i
  · exact places_visitClass (lt_size_of_construct Construct.ofKind ‹_› (by decide))
  · exact places_visitClass (lt_size_of_construct Construct.ofKind ‹_› (by decide))
  · exact places_visitFunction (lt_size_of_construct Construct.ofKind ‹_› (by decide))
  · have hi := lt_size_of_construct Construct.ofKind ‹_› (by decide)
    exact (preserves_forM fun declarator _ => places_visitDeclarator hi declarator).bind fun _ _ =>
      places_plan trivial
  · have hi := lt_size_of_construct Construct.ofKind ‹_› (by decide)
    exact preserves_pure ⟨trivial, places_recordMembers hi⟩
  · exact (preserves_forM fun _ _ => places_modifyContext (by intro; rfl)).bind
      fun _ _ => places_stop
  · exact places_visitInclude (lt_size_of_construct Construct.ofKind ‹_› (by decide))
  · exact places_plan trivial
  · exact places_plan trivial

end Cpp

end Refactor.Extract
