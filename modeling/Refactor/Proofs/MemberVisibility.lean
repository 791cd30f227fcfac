import Refactor.Proofs.ClassBodies
import Refactor.Proofs.FileModels

/-!
# The visibility of members in C++

**Theorem (`model_shows_visibility`).** Every operation and attribute of a class has the visibility
that the body of the class gives to the node where it was recorded, and so has a class in the body
of another one. Operations and classes outside of all classes are public.

The visibility is part of the context, which access specifiers change and classes put back. The
theorem says that it is a function of the tree: of the nodes that were passed before in the same
body. `ShowsState` relates a state to those nodes, the visits keep it (`shows_visit`), and so does
a walk (`shows_walk`).

A field is recorded after a class that is its type has been walked, so it has its own visibility
only because the class puts that back. In the tree this is what `passed` says: of a class nothing
but itself is passed, hence nothing is announced between a field and its declarators
(`announced?_of_mem_passed_field`).
-/

namespace Refactor.Extract.Cpp

open SyntaxTree (root)

/-! ## States -/

/-- In the body of `c`, after these nodes: all that is recorded has the visibility of its place, and
the context has the one that the body has reached. -/
structure ShowsState (f : File) (c : Option NodeId) (before : List NodeId) (s : State) :
    Prop where
  model : ShowsModel f s.model
  currentClass : Option.Rel (ShowsClass f) c s.context.currentClass
  visibility : ∀ k, c = some k → s.context.visibility =
    visibilityAfter f.tree (defaultVisibility f.tree k) before

/-- What a visit reads off the context agrees with the tree. -/
structure Suits (t : SyntaxTree) (c : Option NodeId) (i : NodeId) (ctx : Context) : Prop where
  inClass : ctx.inClass = c.isSome
  visibility : (if ctx.inClass then ctx.visibility else .publicAccess) = visibilityAt t c i

section

variable {f : File} {c : Option NodeId} {before : List NodeId} {s : State}

theorem ShowsState.inClass (h : ShowsState f c before s) : s.context.inClass = c.isSome :=
  isSome_of_rel h.currentClass

theorem ShowsState.suits (hwell : f.tree.WellFormed) {i : NodeId} {after : List NodeId}
    (hsplit : bodyNodes f.tree c = before ++ i :: after) (h : ShowsState f c before s) :
    Suits f.tree c i s.context := by
  refine ⟨h.inClass, ?_⟩
  rw [h.inClass]
  cases c with
  | none => rfl
  | some k =>
    rw [visibilityAt_of_split hwell hsplit]
    exact h.visibility k rfl

/-- Nodes that announce nothing leave the visibility as it is. -/
theorem showsState_silent_iff {nodes : List NodeId} (h : ∀ i ∈ nodes, announced? f.tree i = none) :
    ShowsState f c (before ++ nodes) s ↔ ShowsState f c before s := by
  constructor
  · intro hs
    refine { hs with visibility := fun k hk => ?_ }
    rw [hs.visibility k hk, visibilityAfter_silent h]
  · intro hs
    refine { hs with visibility := fun k hk => ?_ }
    rw [hs.visibility k hk, visibilityAfter_silent h]

theorem ShowsState.pass (h : ShowsState f c before s) {i : NodeId}
    (hi : announced? f.tree i = none) : ShowsState f c (before ++ [i]) s :=
  (showsState_silent_iff (List.forall_mem_singleton.mpr hi)).mpr h

/-! ## Records -/

theorem shows_modifyModel {g : CodeModel → CodeModel}
    (hg : ∀ m, ShowsModel f m → ShowsModel f (g m)) :
    Preserves (ShowsState f c before) (modifyModel g) fun _ => True := by
  intro s _ _ hs hrun
  cases hrun
  exact ⟨{ hs with model := hg _ hs.model }, trivial⟩

theorem shows_modifyClass {g : Class → Class}
    (hg : ∀ k opened, c = some k → ShowsClass f k opened → ShowsClass f k (g opened)) :
    Preserves (ShowsState f c before) (modifyClass g) fun _ => True := by
  intro s _ _ hs hrun
  cases hrun
  exact ⟨⟨hs.model, rel_map hs.currentClass hg, hs.visibility⟩, trivial⟩

theorem shows_recordOperation {o : Operation} (ho : ShowsOperation f c o) :
    Preserves (ShowsState f c before) (recordOperation o) fun _ => True := by
  refine (preserves_getContext (P := fun ctx => ctx.inClass = c.isSome)
    fun _ hs => hs.inClass).bind fun ctx hctx => ?_
  cases c with
  | some k =>
    rw [Option.isSome_some] at hctx
    rw [if_pos hctx]
    refine shows_modifyClass fun k' opened hk hopened => ?_
    obtain rfl := Option.some.inj hk
    exact hopened.addOperation ho
  | none =>
    rw [if_neg (by simp [hctx])]
    exact shows_modifyModel fun _ hm => hm.addOperation ho

theorem shows_recordImport (i : Import) :
    Preserves (ShowsState f c before) (recordImport f i) fun _ => True :=
  shows_modifyModel fun _ hm => ⟨hm.classes, hm.operations⟩

/-- A whole file changes neither classes nor operations. -/
theorem shows_visitUnit (i : NodeId) :
    Preserves (ShowsState f c before) (visitUnit f i) fun plan =>
      plan = { inside := f.tree.children i } := by
  refine (shows_modifyModel ?_).bind fun _ _ => ?_
  · exact fun _ hm => ⟨hm.classes, hm.operations⟩
  · refine Preserves.bind (P := fun _ => True) ?_ fun _ _ => preserves_pure rfl
    refine preserves_forM fun node _ => ?_
    refine Preserves.bind (P := fun _ => True) (preserves_lift fun _ _ => trivial) fun _ _ => ?_
    exact shows_modifyModel fun _ hm => ⟨hm.classes, hm.operations⟩

/-! ## Visits -/

variable {i : NodeId}

/-- How the walk goes on from a node: in the same body, or into a body of its own. Only a field has
something left to do afterwards. -/
inductive Leads (f : File) (i : NodeId) : Plan → Prop
  | on {e : Enclosure} (hopens : opensBody f.tree i = false)
      (hplain : ∀ opened members finish, e ≠ .classBody opened members finish) :
    Leads f i { inside := inside f.tree i, enclosure := e }
  | into {opened : Class} {finish : Class → Class} (hopens : opensBody f.tree i = true)
      (hopened : ShowsClass f i opened)
      (hfinish : ∀ finished, ShowsClass f i finished → ShowsClass f i (finish finished)) :
    Leads f i
      { inside := inside f.tree i
        enclosure := .classBody opened (defaultVisibility f.tree i) finish }
  | field (hconstruct : Construct.ofKind (f.tree.kind i) = .fieldDeclaration) :
    Leads f i (visitField f i)

theorem leads_on {construct : Construct} {nodes : List NodeId}
    (hconstruct : Construct.ofKind (f.tree.kind i) = construct)
    (hne : construct ≠ .classSpecifier ∧ construct ≠ .structSpecifier)
    (hinside : insideAs f.tree i construct = nodes) {e : Enclosure}
    (hplain : ∀ opened members finish, e ≠ .classBody opened members finish) :
    Leads f i { inside := nodes, enclosure := e } := by
  rw [← hinside, ← hconstruct]
  exact .on (opensBody_of_construct hconstruct hne) hplain

/-- Members start with the visibility that the kind of the class says. -/
theorem initialVisibility_eq {kind : String}
    (h : Construct.ofKind kind = .classSpecifier ∨ Construct.ofKind kind = .structSpecifier) :
    initialVisibility kind =
      if kind = "class_specifier" then .privateAccess else .publicAccess := by
  unfold initialVisibility
  by_cases hclass : kind = "class_specifier"
  · subst hclass
    rfl
  · have hstruct : kind = "struct_specifier" := by
      unfold Construct.ofKind at h
      grind
    subst hstruct
    rfl

theorem gives_operationAt_name (ctx : Context) (i function : NodeId) :
    Gives (operationAt f ctx i function) fun found => ∀ o ∈ found,
      f.locate i .methodDeclaration = .ok o.location ∧
      functionName? f.tree function = some o.name ∧
      o.visibility = if ctx.inClass then ctx.visibility else .publicAccess := by
  unfold operationAt functionName?
  dsimp only
  split
  · rename_i name hname
    split
    · exact gives_ok (by simp)
    · refine Gives.bind (fun _ hlocation => hlocation) fun location hlocation => ?_
      refine Gives.bind (P := fun _ => True) (fun _ _ => trivial) fun parameters _ => gives_ok ?_
      intro o ho
      obtain rfl := Option.some.inj ho
      rw [hname]
      exact ⟨hlocation, rfl, rfl⟩
  · exact gives_ok (by simp)

theorem gives_fieldAt_name (ctx : Context) (i declarator : NodeId) :
    Gives (fieldAt f ctx i declarator) fun found => ∀ a ∈ found,
      f.locate i .fieldDeclaration = .ok a.location ∧
      fieldName? f.tree declarator = some a.name ∧ a.visibility = ctx.visibility := by
  unfold fieldAt fieldName?
  dsimp only
  split
  · rename_i name _ hname _
    refine Gives.bind (fun _ hlocation => hlocation) fun location hlocation => gives_ok ?_
    intro a ha
    obtain rfl := Option.some.inj ha
    rw [hname]
    exact ⟨hlocation, rfl, rfl⟩
  · exact gives_ok (by simp)

theorem leads_visitNamespace
    (hconstruct : Construct.ofKind (f.tree.kind i) = .namespaceDefinition) :
    Leads f i (visitNamespace f i) := by
  unfold visitNamespace
  split
  · rename_i hbody
    refine leads_on hconstruct (by decide) ?_ (by simp)
    rw [insideAs, bodyChildren, hbody]
    rfl
  · rename_i body hbody
    refine leads_on hconstruct (by decide) ?_ fun _ _ _ => ?_
    · rw [insideAs, bodyChildren, hbody, Option.toList_some, List.flatMap_singleton]
    · split <;> simp

theorem shows_visitInclude
    (hconstruct : Construct.ofKind (f.tree.kind i) = .includeDirective) :
    Preserves (ShowsState f c before) (visitInclude f i) (Leads f i) := by
  have hstop : Leads f i .stop :=
    leads_on hconstruct (by decide) rfl (by simp)
  unfold visitInclude
  split
  · refine Preserves.bind (P := fun _ => True) (preserves_lift fun _ _ => trivial) fun _ _ => ?_
    exact (shows_recordImport _).bind fun _ _ => preserves_pure hstop
  · exact preserves_pure hstop

/-- An access specifier that says a visibility changes the one that the body has reached. -/
theorem shows_visitAccess (hconstruct : Construct.ofKind (f.tree.kind i) = .accessSpecifier)
    {s s' : State} {plan : Plan} (hs : ShowsState f c before s)
    (hrun : (visitAccess f i).run.run s = (.ok plan, s')) :
    ShowsState f c (before ++ [i]) s' ∧ Leads f i plan := by
  have hstop : Leads f i .stop :=
    leads_on hconstruct (by decide) rfl (by simp)
  have hannounced : announced? f.tree i = Visibility.ofSpecifier? (f.tree.text i) := by
    unfold announced?
    rw [if_pos hconstruct]
  unfold visitAccess at hrun
  cases hspecifier : Visibility.ofSpecifier? (f.tree.text i) with
  | none =>
    rw [hspecifier] at hrun hannounced
    cases hrun
    exact ⟨hs.pass hannounced, hstop⟩
  | some visibility =>
    rw [hspecifier] at hrun hannounced
    cases hrun
    refine ⟨⟨hs.model, hs.currentClass, fun k _ => ?_⟩, hstop⟩
    rw [visibilityAfter_concat, hannounced]
    rfl

end

section

variable {f : File} {c : Option NodeId} {i : NodeId} {before after : List NodeId}
  (hwell : f.tree.WellFormed) (hsplit : bodyNodes f.tree c = before ++ i :: after)

include hsplit

/-- An operation with what is read off the context at the node is shown. -/
theorem showsOperation_of_suits {ctx : Context} (hctx : Suits f.tree c i ctx) {function : NodeId}
    (hfunction : function ∈ functionsAt f.tree i) {o : Operation}
    (ho : f.locate i .methodDeclaration = .ok o.location ∧
      functionName? f.tree function = some o.name ∧
      o.visibility = if ctx.inClass then ctx.visibility else .publicAccess) :
    ShowsOperation f c o := by
  refine ⟨i, ?_, ho.1, ⟨function, hfunction, ho.2.1⟩, ho.2.2.trans hctx.visibility⟩
  rw [hsplit]
  exact List.mem_append_right _ List.mem_cons_self

include hwell

theorem shows_getContext : Preserves (ShowsState f c before) getContext (Suits f.tree c i) :=
  preserves_getContext fun _ hs => hs.suits hwell hsplit

theorem shows_recordDeclared {function : NodeId} (hfunction : function ∈ functionsAt f.tree i) :
    Preserves (ShowsState f c before) (recordDeclared f i function) fun _ => True := by
  refine (shows_getContext hwell hsplit).bind fun ctx hctx => ?_
  refine (preserves_lift (gives_operationAt_name ctx i function)).bind fun found hfound => ?_
  refine preserves_forM fun o ho => shows_recordOperation ?_
  exact showsOperation_of_suits hsplit hctx hfunction (hfound o (Option.mem_toList.mp ho))

theorem shows_visitFunction (hconstruct : Construct.ofKind (f.tree.kind i) = .functionDefinition) :
    Preserves (ShowsState f c before) (visitFunction f i) (Leads f i) := by
  have hstop : Leads f i .stop :=
    leads_on hconstruct (by decide) rfl (by simp)
  have hfunctions : functionsAt f.tree i = ((f.tree.childInField? i "declarator").bind
      fun declarator => f.tree.firstDescendant? declarator "function_declarator").toList := by
    unfold functionsAt
    rw [hconstruct]
  unfold visitFunction
  dsimp only
  split
  · rename_i function hfunction
    have hmem : function ∈ functionsAt f.tree i := by
      rw [hfunctions, hfunction]
      exact List.mem_singleton_self function
    refine (shows_getContext hwell hsplit).bind fun ctx hctx => ?_
    refine (preserves_lift (gives_operationAt_name ctx i function)).bind fun found hfound => ?_
    refine Preserves.bind (P := fun _ => True) ?_ fun _ _ => preserves_pure hstop
    refine preserves_forM fun o ho => shows_recordOperation ?_
    exact showsOperation_of_suits hsplit hctx hmem (hfound o (Option.mem_toList.mp ho))
  · exact preserves_pure hstop

theorem shows_visitDeclaration (hconstruct : Construct.ofKind (f.tree.kind i) = .declaration) :
    Preserves (ShowsState f c before) (visitDeclaration f i) (Leads f i) := by
  refine Preserves.bind (P := fun _ => True) ?_ fun _ _ => preserves_pure ?_
  · refine preserves_forM fun declarator hdeclarator => ?_
    unfold visitDeclarator
    dsimp only
    split
    · refine (shows_getContext hwell hsplit).bind fun ctx _ => ?_
      split
      · exact preserves_forM fun value _ => shows_modifyModel fun _ hm => hm.linkInitializer value
      · exact preserves_pure trivial
    · rename_i hkind
      refine preserves_forM fun function hfunction => shows_recordDeclared hwell hsplit ?_
      unfold functionsAt
      rw [hconstruct]
      refine List.mem_filterMap.mpr ⟨declarator, ?_, Option.mem_toList.mp hfunction⟩
      exact List.mem_filter.mpr ⟨hdeclarator, by simpa using hkind⟩
  · exact leads_on hconstruct (by decide) rfl (by simp)

theorem shows_recordMember (hconstruct : Construct.ofKind (f.tree.kind i) = .fieldDeclaration)
    {declarator : NodeId}
    (hdeclarator : declarator ∈ f.tree.childrenInField i "declarator") :
    Preserves (ShowsState f c before) (recordMember f i declarator) fun _ => True := by
  unfold recordMember
  split
  · rename_i function hfunction
    refine shows_recordDeclared hwell hsplit ?_
    unfold functionsAt
    rw [hconstruct]
    exact List.mem_filterMap.mpr ⟨declarator, hdeclarator, hfunction⟩
  · refine (shows_getContext hwell hsplit).bind fun ctx hctx => ?_
    refine (preserves_lift (gives_fieldAt_name ctx i declarator)).bind fun field hfield => ?_
    refine preserves_forM fun a ha => shows_modifyClass fun k opened hk hopened => ?_
    obtain ⟨hlocation, hname, hvisibility⟩ := hfield a (Option.mem_toList.mp ha)
    subst hk
    refine hopened.addAttribute ⟨i, ?_, hlocation, ⟨declarator, hdeclarator, hname⟩, ?_⟩
    · rw [hsplit]
      exact List.mem_append_right _ List.mem_cons_self
    · rw [hvisibility, ← hctx.visibility, hctx.inClass]
      rfl

theorem shows_recordMembers (hconstruct : Construct.ofKind (f.tree.kind i) = .fieldDeclaration) :
    Preserves (ShowsState f c before) (recordMembers f i) fun _ => True := by
  refine (shows_getContext hwell hsplit).bind fun ctx _ => ?_
  split
  · exact preserves_forM fun declarator hdeclarator =>
      shows_recordMember hwell hsplit hconstruct hdeclarator
  · exact preserves_pure trivial

theorem shows_visitClass (hc : Entered f.tree c)
    (hconstruct : Construct.ofKind (f.tree.kind i) = .classSpecifier ∨
      Construct.ofKind (f.tree.kind i) = .structSpecifier) :
    Preserves (ShowsState f c before) (visitClass f i) (Leads f i) := by
  unfold visitClass
  dsimp only
  split
  · rename_i name body hname hbody
    have hopens : opensBody f.tree i = true := by
      unfold opensBody
      rw [hname, hbody]
      rcases hconstruct with hconstruct | hconstruct <;> rw [hconstruct] <;> rfl
    have hinside : inside f.tree i = f.tree.children body := by
      unfold inside
      rcases hconstruct with hconstruct | hconstruct <;>
        rw [hconstruct, insideAs, if_pos hopens, bodyChildren, hbody, Option.toList_some,
          List.flatMap_singleton]
    have hdefault : initialVisibility (f.tree.kind i) = defaultVisibility f.tree i :=
      initialVisibility_eq hconstruct
    refine (shows_getContext hwell hsplit).bind fun ctx hctx => ?_
    refine Preserves.bind (preserves_lift fun _ hlocation => hlocation) fun location hlocation => ?_
    rw [← hinside, hdefault]
    refine preserves_pure (.into hopens (ShowsClass.addSuperclasses ?_ _) fun _ hc => { hc with })
    refine ⟨hopens, hlocation, ?_, ⟨c, hc, ?_, hctx.inClass, hctx.visibility⟩, ?_, ?_⟩
    · rw [SyntaxTree.fieldText?, hname]
      rfl
    · rw [hsplit]
      exact List.mem_append_right _ List.mem_cons_self
    · simp
    · simp
  · rename_i hmissing
    have hopens : opensBody f.tree i = false := by
      unfold opensBody
      cases hname : f.tree.childInField? i "name" with
      | none => simp
      | some name =>
        cases hbody : f.tree.childInField? i "body" with
        | none => simp
        | some body => exact absurd hbody (hmissing name body hname)
    have hstop : Leads f i { inside := inside f.tree i } := .on hopens (by simp)
    rw [inside_of_not_opensBody hconstruct hopens] at hstop
    exact preserves_pure hstop

/-- Visits of all other nodes leave the visibility as it is. -/
theorem shows_visit_of_ne (hc : Entered f.tree c)
    (hne : Construct.ofKind (f.tree.kind i) ≠ .accessSpecifier) :
    Preserves (ShowsState f c before) (visit f i) (Leads f i) := by
  unfold visit
  split
  · rename_i hconstruct
    intro s plan s' hs hrun
    obtain ⟨hs', rfl⟩ := shows_visitUnit i s plan s' hs hrun
    exact ⟨hs', leads_on hconstruct (by decide) rfl (by simp)⟩
  · exact preserves_pure (leads_visitNamespace ‹_›)
  · exact shows_visitClass hwell hsplit hc (.inl ‹_›)
  · exact shows_visitClass hwell hsplit hc (.inr ‹_›)
  · exact shows_visitFunction hwell hsplit ‹_›
  · exact shows_visitDeclaration hwell hsplit ‹_›
  · exact preserves_pure (.field ‹_›)
  · exact absurd ‹_› hne
  · exact shows_visitInclude ‹_›
  · rename_i hconstruct
    exact preserves_pure
      (leads_on hconstruct (by decide) rfl (by simp))
  · rename_i hconstruct
    exact preserves_pure
      (leads_on hconstruct (by decide) rfl (by simp))

/-- **A visit records with the visibility of its place**, and the walk goes on as the body does. -/
theorem shows_visit (hc : Entered f.tree c) {s s' : State} {plan : Plan}
    (hs : ShowsState f c before s) (hrun : (visit f i).run.run s = (.ok plan, s')) :
    ShowsState f c (before ++ [i]) s' ∧ Leads f i plan := by
  by_cases haccess : Construct.ofKind (f.tree.kind i) = .accessSpecifier
  · have hvisit : visit f i = visitAccess f i := by
      unfold visit
      rw [haccess]
    rw [hvisit] at hrun
    exact shows_visitAccess haccess hs hrun
  · obtain ⟨hs', hplan⟩ := shows_visit_of_ne hwell hsplit hc haccess s plan s' hs hrun
    exact ⟨hs'.pass (if_neg haccess), hplan⟩

end

/-! ## The walk -/

section

variable {f : File} {c : Option NodeId}

/-- Nodes that are walked one after the other are passed one after the other. -/
theorem shows_forM {g : NodeId → Extraction Unit} {nodes before after : List NodeId}
    (hg : ∀ j ∈ nodes, ∀ before after s s',
      bodyNodes f.tree c = before ++ (passed f.tree j ++ after) → ShowsState f c before s →
      (g j).run.run s = (.ok (), s') → ShowsState f c (before ++ passed f.tree j) s')
    (hsplit : bodyNodes f.tree c = before ++ (nodes.flatMap (passed f.tree) ++ after))
    {s s' : State} (hs : ShowsState f c before s)
    (hrun : (nodes.forM g).run.run s = (.ok (), s')) :
    ShowsState f c (before ++ nodes.flatMap (passed f.tree)) s' := by
  induction nodes generalizing before s with
  | nil =>
    cases hrun
    rw [List.flatMap_nil, List.append_nil]
    exact hs
  | cons j nodes ih =>
    rw [List.forall_mem_cons] at hg
    rw [List.flatMap_cons, List.append_assoc] at hsplit
    obtain ⟨_, mid, hfirst, hrest⟩ := exists_of_run_bind hrun
    have hmid := hg.1 before _ s mid hsplit hs hfirst
    rw [← List.append_assoc] at hsplit
    rw [List.flatMap_cons, ← List.append_assoc]
    exact ih hg.2 hsplit hmid hrest

section

variable {before : List NodeId} {s inner : State}

theorem ShowsState.openPlain (h : ShowsState f c before s) {e : Enclosure}
    (hplain : ∀ opened members finish, e ≠ .classBody opened members finish) :
    ShowsState f c before (e.opened s) := by
  cases e with
  | classBody opened members finish => exact absurd rfl (hplain opened members finish)
  | _ => exact ⟨h.model, h.currentClass, h.visibility⟩

theorem ShowsState.closePlain (h : ShowsState f c before inner) {e : Enclosure}
    (hplain : ∀ opened members finish, e ≠ .classBody opened members finish) :
    ShowsState f c before (e.closed s inner) := by
  cases e with
  | classBody opened members finish => exact absurd rfl (hplain opened members finish)
  | functionBody name =>
    obtain ⟨scopes, hclosed⟩ := Enclosure.closed_functionBody name s inner
    rw [hclosed]
    exact ⟨h.model, h.currentClass, h.visibility⟩
  | _ => exact ⟨h.model, h.currentClass, h.visibility⟩

variable {i : NodeId} {opened : Class} {finish : Class → Class}

/-- A class body starts anew. -/
theorem ShowsState.openClass (h : ShowsState f c before s) (hopened : ShowsClass f i opened) :
    ShowsState f (some i) []
      ((Enclosure.classBody opened (defaultVisibility f.tree i) finish).opened s) where
  model := h.model
  currentClass := .some hopened
  visibility := by
    rintro k ⟨⟩
    rfl

/-- After a class body, the one around it goes on as it was. -/
theorem ShowsState.closeClass (h : ShowsState f c before s) {nodes : List NodeId}
    (hinner : ShowsState f (some i) nodes inner) {members : Visibility}
    (hfinish : ∀ finished, ShowsClass f i finished → ShowsClass f i (finish finished)) :
    ShowsState f c before ((Enclosure.classBody opened members finish).closed s inner) := by
  refine ⟨?_, h.currentClass, h.visibility⟩
  obtain ⟨finished, hfinished, hshows⟩ := exists_of_rel_some hinner.currentClass
  rw [Enclosure.model_closed_class hfinished]
  exact hinner.model.addClass (hfinish finished hshows)

end

/-- A node that opens no body is passed, and then what it leads on to. -/
theorem shows_inside (hwell : f.tree.WellFormed) {i : NodeId} (hi : i < f.tree.size)
    (hopens : opensBody f.tree i = false) {g : NodeId → Extraction Unit}
    (hg : ∀ j ∈ inside f.tree i, ∀ before after s s',
      bodyNodes f.tree c = before ++ (passed f.tree j ++ after) → ShowsState f c before s →
      (g j).run.run s = (.ok (), s') → ShowsState f c (before ++ passed f.tree j) s')
    {before after : List NodeId}
    (hsplit : bodyNodes f.tree c = before ++ (passed f.tree i ++ after)) {e : Enclosure}
    (hplain : ∀ opened members finish, e ≠ .classBody opened members finish) {s inner : State}
    (hs : ShowsState f c (before ++ [i]) s)
    (hrun : ((inside f.tree i).forM g).run.run (e.opened s) = (.ok (), inner)) :
    ShowsState f c (before ++ passed f.tree i) (e.closed s inner) := by
  rw [passed_eq hwell hi, hopens, if_neg Bool.false_ne_true, List.cons_append,
    List.append_cons] at hsplit
  rw [passed_eq hwell hi, hopens, if_neg Bool.false_ne_true, List.append_cons]
  exact (shows_forM hg hsplit (hs.openPlain hplain) hrun).closePlain hplain

/-- **A walk passes the nodes of the body in their order**, and what it records has the visibility
of its place. -/
theorem shows_walk (hwell : f.tree.WellFormed) (hc : Entered f.tree c) {depth i : Nat}
    (hi : i < f.tree.size) (hdepth : f.tree.size ≤ depth + i) {before after : List NodeId}
    (hsplit : bodyNodes f.tree c = before ++ (passed f.tree i ++ after)) {s s' : State}
    (hs : ShowsState f c before s)
    (hrun : (walk (visit f) depth i).run.run s = (.ok (), s')) :
    ShowsState f c (before ++ passed f.tree i) s' := by
  induction depth generalizing i c before after s s' with
  | zero => omega
  | succ depth ih =>
    have hdeeper : ∀ {c'}, Entered f.tree c' → ∀ j ∈ inside f.tree i, ∀ before after s s',
        bodyNodes f.tree c' = before ++ (passed f.tree j ++ after) → ShowsState f c' before s →
        (walk (visit f) depth j).run.run s = (.ok (), s') →
        ShowsState f c' (before ++ passed f.tree j) s' := by
      intro c' hc' (j : Nat) hj before after s s' hsplit hs hrun
      have hbehind : i < j ∧ j < f.tree.size := lt_of_mem_inside hwell hj
      exact ih hc' hbehind.2 (by omega) hsplit hs hrun
    obtain ⟨rest, hpassed⟩ : ∃ rest, bodyNodes f.tree c = before ++ i :: rest := by
      rw [passed_eq hwell hi] at hsplit
      exact ⟨_, hsplit⟩
    obtain ⟨plan, mid, hvisit, hfollow⟩ := exists_of_run_bind hrun
    obtain ⟨inner, hinner, hafter⟩ := exists_of_run_follow hfollow
    obtain ⟨hmid, hplan⟩ := shows_visit hwell hpassed hc hs hvisit
    cases hplan with
    | on hopens hplain =>
      cases hafter
      exact shows_inside hwell hi hopens (hdeeper hc) hsplit hplain hmid hinner
    | field hconstruct =>
      -- The declarators come after the type, but nothing was announced since the field was reached.
      have hopens := opensBody_of_construct hconstruct (by decide)
      have htype : (visitField f i).inside = inside f.tree i := by
        rw [inside, hconstruct]
        rfl
      rw [htype] at hinner
      have hclosed := shows_inside hwell hi hopens (hdeeper hc) hsplit (e := .plain) (by simp) hmid
        hinner
      have hsilent := announced?_of_mem_passed_field hwell hi hconstruct
      rw [showsState_silent_iff hsilent] at hclosed ⊢
      exact (shows_recordMembers hwell hpassed hconstruct _ _ _ hclosed hafter).1
    | into hopens hopened hfinish =>
      have hentered : Entered f.tree (some i) := by
        refine .body hc ?_ hopens
        rw [hpassed]
        exact List.mem_append_right _ List.mem_cons_self
      have hbody : bodyNodes f.tree (some i) =
          [] ++ ((inside f.tree i).flatMap (passed f.tree) ++ []) := by
        rw [List.append_nil, List.nil_append]
        rfl
      have hmembers := shows_forM (hdeeper hentered) hbody (hmid.openClass hopened) hinner
      cases hafter
      rw [passed_eq hwell hi, hopens]
      exact hmid.closeClass hmembers hfinish

end

/-! ## The model of a file -/

theorem showsModel_of_model {f : File} (hwell : f.tree.WellFormed) {m : CodeModel}
    (h : model f = .ok m) : ShowsModel f m := by
  obtain ⟨walked, hwalked, rfl⟩ := exists_of_map_ok h
  obtain ⟨final, hrun, rfl⟩ := exists_of_modelOf hwalked
  obtain ⟨plan, start, henter, hfollow⟩ := exists_of_run_bind hrun
  have hempty : ShowsState f none []
      { model := (CodeModel.new (some .cpp)).addSource f.path f.tree.source } := by
    refine ⟨⟨?_, ?_⟩, .none, ?_⟩
    · exact fun _ hc => absurd hc List.not_mem_nil
    · exact fun _ ho => absurd ho List.not_mem_nil
    · exact fun _ hk => absurd hk (Option.some_ne_none _).symm
  obtain ⟨hstart, rfl⟩ := shows_visitUnit root _ plan start hempty henter
  obtain ⟨inner, hinner, hafter⟩ := exists_of_run_follow hfollow
  cases hafter
  have hbody : bodyNodes f.tree none =
      [] ++ ((f.tree.children root).flatMap (passed f.tree) ++ []) := by
    rw [List.append_nil, List.nil_append]
    rfl
  have hwalk := shows_forM (fun j hj before after s s' hsplit hs hrun =>
    shows_walk hwell .file (hwell.lt_of_mem_children hj).2 (Nat.le_add_right f.tree.size j) hsplit
      hs hrun) hbody (hstart.openPlain (by simp)) hinner
  exact (hwalk.closePlain (by simp)).model.link

/-- **Member visibility never leaks between class bodies.** Whatever is recorded in a class body has
the visibility that was announced last in that body before it, or the one that the body starts with;
what is announced in bodies inside has no effect. Outside of classes operations are public. -/
theorem model_shows_visibility {f : File} (hbuilt : f.tree.Built) :
    (f.path ≠ "" → ∃ m, model f = .ok m) ∧
      ∀ m, model f = .ok m → ShowsModel f m ∧
        ∀ o ∈ m.operations, o.visibility = .publicAccess := by
  refine ⟨fun hpath => ?_, fun m hm => ?_⟩
  · obtain ⟨m, hm, -⟩ := fileModel_of_sound (f := f) ⟨hpath, hbuilt.wellFormed⟩ .cpp
    exact ⟨m, hm⟩
  · have hshows := showsModel_of_model hbuilt.wellFormed hm
    refine ⟨hshows, fun o ho => ?_⟩
    obtain ⟨j, -, -, -, hvisibility⟩ := hshows.operations o ho
    exact hvisibility

/-- A class with a field whose type is a structure, which has an access specifier of its own. -/
def nestedBodies : SyntaxTree :=
  [nodeOf "translation_unit" none 0 73 none,
    nodeOf "class_specifier" none 0 63 (some 0),
    nodeOf "type_identifier" (some "name") 6 7 (some 1),
    nodeOf "field_declaration_list" (some "body") 7 63 (some 1),
    nodeOf "field_declaration" none 8 14 (some 3),
    nodeOf "primitive_type" (some "type") 8 11 (some 4),
    nodeOf "field_identifier" (some "declarator") 12 13 (some 4),
    nodeOf "access_specifier" none 14 20 (some 3),
    nodeOf "field_declaration" none 21 53 (some 3),
    nodeOf "struct_specifier" (some "type") 21 51 (some 8),
    nodeOf "type_identifier" (some "name") 28 29 (some 9),
    nodeOf "field_declaration_list" (some "body") 29 51 (some 9),
    nodeOf "field_declaration" none 30 36 (some 11),
    nodeOf "primitive_type" (some "type") 30 33 (some 12),
    nodeOf "field_identifier" (some "declarator") 34 35 (some 12),
    nodeOf "access_specifier" none 36 43 (some 11),
    nodeOf "field_declaration" none 44 50 (some 11),
    nodeOf "primitive_type" (some "type") 44 47 (some 16),
    nodeOf "field_identifier" (some "declarator") 48 49 (some 16),
    nodeOf "field_identifier" (some "declarator") 51 52 (some 8),
    nodeOf "field_declaration" none 53 62 (some 3),
    nodeOf "function_declarator" (some "declarator") 58 61 (some 20),
    nodeOf "field_identifier" (some "declarator") 58 59 (some 21),
    nodeOf "declaration" none 64 73 (some 0),
    nodeOf "function_declarator" (some "declarator") 69 72 (some 23),
    nodeOf "identifier" (some "declarator") 69 70 (some 24)].foldl SyntaxTree.attach
      { source := "class A{int a;public:struct B{int b;private:int c;}d;void m();};void g();" }

/-- The names in a model with their visibility: class by class, then operations outside. -/
def visibilities (m : CodeModel) : List (String × Visibility) :=
  (m.classes.flatMap fun c =>
    (c.name, c.visibility) :: c.attributes.map (fun a => (a.name, a.visibility)) ++
      c.operations.map fun o => (o.name, o.visibility)) ++
    m.operations.map fun o => (o.name, o.visibility)

/-- What is private in the structure leaves the members of the class after it public. -/
theorem model_shows_visibility_nestedBodies :
    nestedBodies.Built ∧ ∃ m, model ⟨"a.cpp", nestedBodies⟩ = .ok m ∧
      ShowsModel ⟨"a.cpp", nestedBodies⟩ m ∧
      visibilities m =
        [("B", .publicAccess), ("b", .publicAccess), ("c", .privateAccess),
          ("A", .publicAccess), ("a", .privateAccess), ("d", .publicAccess),
          ("m", .publicAccess), ("g", .publicAccess)] := by
  have hbuilt : nestedBodies.Built :=
    SyntaxTree.built_attachAll (by decide +kernel) (by decide +kernel)
  obtain ⟨hexists, hshows⟩ := model_shows_visibility (f := ⟨"a.cpp", nestedBodies⟩) hbuilt
  obtain ⟨m, hm⟩ := hexists (by decide)
  have hvisibilities : (model ⟨"a.cpp", nestedBodies⟩).toOption.map visibilities =
      some [("B", .publicAccess), ("b", .publicAccess), ("c", .privateAccess),
        ("A", .publicAccess), ("a", .privateAccess), ("d", .publicAccess),
        ("m", .publicAccess), ("g", .publicAccess)] := by decide +kernel
  rw [hm] at hvisibilities
  exact ⟨hbuilt, m, hm, (hshows m hm).1, Option.some.inj hvisibilities⟩

end Refactor.Extract.Cpp
