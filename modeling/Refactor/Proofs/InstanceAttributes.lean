import Refactor.Proofs.SelfAssignments

/-!
# The instance attributes of a Python class

**Theorem (`instance_attributes_first_assigned`).** In every class of a model, an attribute of the
instances has a name that no attribute recorded before it has. It is read off the first assignment
to its name in the methods of the class, and every name that is assigned there is the name of some
attribute. It is an attribute of the instances exactly if no assignment in the body of the class
comes first.

Methods are read one after the other while the body of the class adds attributes in between. At any
time the attributes follow from the offers that have been met (`Admits`): one more offer either has
a name that is known (`Admits.skip`) or puts an attribute at the end (`Admits.push`). This is
carried on by the visits (`carriedBy_visit`).
-/

namespace Refactor

/-- Either an attribute is put at the end, or there is one of its name already. -/
theorem Class.attributes_addAttribute (c : Class) (a : Attribute) :
    (c.addAttribute a).attributes = c.attributes ++ [{ a with className := some c.name }] ∨
      (∃ b ∈ c.attributes, b.name = a.name) ∧ (c.addAttribute a).attributes = c.attributes := by
  unfold addAttribute LocationIndex.pushUnique
  dsimp only
  split
  · rename_i hholds
    obtain ⟨b, hb, hsame⟩ := List.any_eq_true.mp (LocationIndex.mem_of_holds hholds)
    exact .inr ⟨⟨b, hb, (Attribute.name_and_location_of_beq hsame).1⟩, rfl⟩
  · exact .inl rfl

namespace Extract.Python

open SyntaxTree (root Under)

/-! ## Attributes and offers -/

/-- The attribute is what the assignment gives in the class of this name. -/
def Makes (f : File) (owner : String) (i : NodeId) (a : Attribute) : Prop :=
  ∃ read, attributeAt f i a.name = .ok read ∧ a = { read with className := some owner }

/-- The attributes that a class has after these offers. -/
structure Admits (f : File) (owner : String) (offers : List Offer) (attributes : List Attribute) :
    Prop where
  distinct : attributes.Pairwise fun a b => b.isStatic = false → a.name ≠ b.name
  named : ∀ name, (∃ a ∈ attributes, a.name = name) ↔ ∃ o ∈ offers, o.name = name
  first : ∀ a ∈ attributes, a.isStatic = false → ∃ o, offers.find? (·.name == a.name) = some o ∧
    o.isStatic = false ∧ Makes f owner o.assignment a
  instances : ∀ name o, offers.find? (·.name == name) = some o → o.isStatic = false →
    ∃ a ∈ attributes, a.isStatic = false ∧ a.name = name

section

variable {f : File} {owner : String} {offers : List Offer} {attributes : List Attribute} {o : Offer}

theorem admits_nil (f : File) (owner : String) : Admits f owner [] [] where
  distinct := .nil
  named := by simp
  first := by simp
  instances := by simp

/-- The first offer of a name stays the first one. -/
theorem find?_append_offer {name : String} {found : Offer}
    (h : offers.find? (·.name == name) = some found) :
    (offers ++ [o]).find? (·.name == name) = some found := by
  rw [List.find?_append, h, Option.some_or]

/-- A further offer is the first of its name only if it is the only one. -/
theorem eq_of_find?_append {name : String} {found : Offer}
    (h : (offers ++ [o]).find? (·.name == name) = some found) :
    offers.find? (·.name == name) = some found ∨
      offers.find? (·.name == name) = none ∧ o.name = name ∧ found = o := by
  rw [List.find?_append] at h
  cases hbefore : offers.find? (·.name == name) with
  | some other =>
    rw [hbefore, Option.some_or] at h
    exact .inl h
  | none =>
    rw [hbefore, Option.none_or, List.find?_singleton] at h
    split at h
    · rename_i hname
      exact .inr ⟨rfl, beq_iff_eq.mp hname, (Option.some.inj h).symm⟩
    · cases h

theorem find?_offer_eq_none {name : String} :
    offers.find? (·.name == name) = none ↔ ¬ ∃ o ∈ offers, o.name = name := by
  simp [List.find?_eq_none]

namespace Admits

/-- An offer of a name that is known changes nothing. -/
theorem skip (h : Admits f owner offers attributes) (hknown : ∃ a ∈ attributes, a.name = o.name) :
    Admits f owner (offers ++ [o]) attributes where
  distinct := h.distinct
  named := by
    intro name
    rw [h.named]
    simp only [List.mem_append, List.mem_singleton, or_and_right, exists_or, exists_eq_left]
    refine ⟨.inl, fun hnamed => hnamed.elim id ?_⟩
    rintro rfl
    exact (h.named _).mp hknown
  first := by
    intro a ha hstatic
    obtain ⟨found, hfound, hmakes⟩ := h.first a ha hstatic
    exact ⟨found, find?_append_offer hfound, hmakes⟩
  instances := by
    intro name found hfound hstatic
    rcases eq_of_find?_append hfound with hbefore | ⟨hnone, rfl, -⟩
    · exact h.instances name found hbefore hstatic
    · exact absurd ((h.named _).mp hknown) (find?_offer_eq_none.mp hnone)

/-- An attribute is put at the end. One of the instances must have a new name. -/
theorem push (h : Admits f owner offers attributes) {a : Attribute} (hname : a.name = o.name)
    (hstatic : a.isStatic = o.isStatic)
    (hinstance : a.isStatic = false →
      Makes f owner o.assignment a ∧ ∀ b ∈ attributes, b.name ≠ a.name) :
    Admits f owner (offers ++ [o]) (attributes ++ [a]) where
  distinct := by
    refine List.pairwise_append.mpr ⟨h.distinct, List.pairwise_singleton _ _, ?_⟩
    intro b hb a' ha' hown
    obtain rfl := List.mem_singleton.mp ha'
    exact (hinstance hown).2 b hb
  named := by
    intro name
    simp only [List.mem_append, List.mem_singleton, or_and_right, exists_or, exists_eq_left,
      h.named, hname]
  first := by
    intro b hb hown
    rcases List.mem_append.mp hb with hb | hb
    · obtain ⟨found, hfound, hmade⟩ := h.first b hb hown
      exact ⟨found, find?_append_offer hfound, hmade⟩
    · obtain rfl := List.mem_singleton.mp hb
      obtain ⟨hmakes, hnew⟩ := hinstance hown
      have hnone : offers.find? (·.name == b.name) = none := by
        rw [find?_offer_eq_none, ← h.named]
        rintro ⟨other, hother, hsame⟩
        exact hnew other hother hsame
      refine ⟨o, ?_, hstatic ▸ hown, hmakes⟩
      rw [List.find?_append, hnone, Option.none_or, List.find?_singleton, hname, beq_self_eq_true,
        if_pos rfl]
  instances := by
    intro name found hfound hown
    rcases eq_of_find?_append hfound with hbefore | ⟨-, rfl, rfl⟩
    · obtain ⟨b, hb, hmade⟩ := h.instances name found hbefore hown
      exact ⟨b, List.mem_append_left _ hb, hmade⟩
    · exact ⟨a, List.mem_append_right _ (List.mem_singleton_self a), hstatic.trans hown, hname⟩

end Admits

theorem name_and_isStatic_of_attributeAt {i : NodeId} {name : String} {read : Attribute}
    (h : attributeAt f i name = .ok read) : read.name = name ∧ read.isStatic = false := by
  obtain ⟨location, -, h⟩ := exists_of_bind_ok h
  cases h
  exact ⟨rfl, rfl⟩

namespace Admits

variable {c : Class} {i : NodeId} {name : String} {read : Attribute}

theorem addAttribute (h : Admits f c.name offers c.attributes)
    (hread : attributeAt f i name = .ok read) :
    Admits f c.name (offers ++ [⟨i, name, true⟩])
      (c.addAttribute { read with isStatic := true }).attributes := by
  obtain ⟨hname, -⟩ := name_and_isStatic_of_attributeAt hread
  rcases c.attributes_addAttribute { read with isStatic := true } with hadded | ⟨hknown, hsame⟩
  · rw [hadded]
    exact h.push hname rfl fun hown => by cases hown
  · rw [hsame]
    exact h.skip (hname ▸ hknown)

theorem addNewAttribute (h : Admits f c.name offers c.attributes)
    (hread : attributeAt f i name = .ok read) :
    Admits f c.name (offers ++ [⟨i, name, false⟩]) (addNewAttribute c read).attributes := by
  obtain ⟨hname, hstatic⟩ := name_and_isStatic_of_attributeAt hread
  unfold Python.addNewAttribute
  split
  · rename_i hknown
    obtain ⟨a, ha⟩ := Option.isSome_iff_exists.mp hknown
    rw [Class.attribute?] at ha
    have hsame : a.name = read.name := by simpa using List.find?_some ha
    exact h.skip ⟨a, List.mem_of_find?_eq_some ha, hsame.trans hname⟩
  · rename_i hunknown
    have hnew : ∀ b ∈ c.attributes, b.name ≠ read.name := by
      rw [Option.not_isSome_iff_eq_none, Class.attribute?, List.find?_eq_none] at hunknown
      exact fun b hb => by simpa using hunknown b hb
    rcases c.attributes_addAttribute read with hadded | ⟨⟨b, hb, hsame⟩, -⟩
    · rw [hadded]
      refine h.push hname hstatic fun _ => ⟨⟨read, ?_, rfl⟩, hnew⟩
      rw [← hname] at hread
      exact hread
    · exact absurd hsame (hnew b hb)

end Admits

end

/-! ## States -/

/-- The class is the one that the node opens, with the attributes that it has been offered. -/
structure HoldsOffers (f : File) (offered : List Offer) (k : NodeId) (c : Class) : Prop where
  opens : Opens (role f.tree) f.tree k
  location : f.locate k .classDeclaration = .ok c.location
  name : f.tree.fieldText? k "name" = some c.name
  admits : Admits f c.name offered c.attributes

/-- The class that `c` opens is open, if any, and has been offered these. Classes of the model have
been offered all of theirs. -/
structure OffersHeld (f : File) (c : Option NodeId) (offered : List Offer) (s : State) : Prop where
  classes : ∀ d ∈ s.model.classes, ∃ k, HoldsOffers f (offers f.tree k) k d
  currentClass : Option.Rel (HoldsOffers f offered) c s.context.currentClass

/-- Where `c` is open, these nodes have been met. -/
structure OffersMet (f : File) (c : Option NodeId) (nodes : List NodeId) (s : State) : Prop extends
    OffersHeld f c (nodes.flatMap (offersAt f.tree)) s where
  inBody : c.isSome = true → s.context.inClassBody = true

section

variable {f : File} {c : Option NodeId} {nodes : List NodeId} {s : State} {i : NodeId}

/-- A change of the class that is open. -/
theorem OffersMet.mapClass (h : OffersMet f c nodes s) {nodes' : List NodeId} {g : Class → Class}
    (hg : ∀ k d, HoldsOffers f (nodes.flatMap (offersAt f.tree)) k d →
      HoldsOffers f (nodes'.flatMap (offersAt f.tree)) k (g d)) :
    OffersMet f c nodes'
      { s with context := { s.context with currentClass := s.context.currentClass.map g } } :=
  ⟨⟨h.classes, rel_map h.currentClass fun k d _ hholds => hg k d hholds⟩, h.inBody⟩

/-- A node that offers nothing to a class makes no difference. -/
theorem OffersMet.pass (h : OffersMet f c nodes s)
    (hi : c.isSome = true → offersAt f.tree i = []) : OffersMet f c (nodes ++ [i]) s := by
  refine ⟨⟨h.classes, ?_⟩, h.inBody⟩
  rw [← Option.map_id_apply (x := s.context.currentClass)]
  refine rel_map h.currentClass fun k d hc hholds => ?_
  refine ⟨hholds.opens, hholds.location, hholds.name, ?_⟩
  rw [List.flatMap_append, List.flatMap_singleton, hi (hc ▸ rfl), List.append_nil]
  exact hholds.admits

/-- After a class body, the one around it goes on as it was, and the class has met all its nodes. -/
theorem OffersMet.closeClass (h : OffersMet f c nodes s) {opened : Class} {members : Visibility}
    {finish : Class → Class} {inner : State} {k : NodeId}
    (hfinish : ∀ d, (finish d).name = d.name ∧ (finish d).location = d.location ∧
      (finish d).attributes = d.attributes)
    (hrestored : Restored .python ((Enclosure.classBody opened members finish).opened s) inner)
    (hinner : OffersMet f (some k) (memberNodes (role f.tree) f.tree (some k)) inner) :
    OffersMet f c nodes ((Enclosure.classBody opened members finish).closed s inner) := by
  obtain ⟨finished, hfinished, hholds⟩ := exists_of_rel_some hinner.currentClass
  refine ⟨⟨?_, h.currentClass⟩, fun hc => ?_⟩
  · rw [Enclosure.model_closed_class hfinished]
    refine LocationIndex.forall_mem_pushUnique hinner.classes ⟨k, ?_⟩
    obtain ⟨hname, hlocation, hattributes⟩ := hfinish finished
    refine ⟨hholds.opens, hlocation ▸ hholds.location, hname ▸ hholds.name, ?_⟩
    rw [hname, hattributes]
    exact hholds.admits
  · have hscopes := (restored_leave _ hrestored).scopes
    have hbody := h.inBody hc
    unfold Context.inClassBody at hbody ⊢
    rwa [← hscopes] at hbody

theorem OffersMet.inClass (h : OffersMet f c nodes s) : s.context.inClass = c.isSome :=
  isSome_of_rel h.currentClass

theorem met_modifyModel {g : CodeModel → CodeModel} (hg : ∀ m, (g m).classes = m.classes) :
    Preserves (OffersMet f c nodes) (modifyModel g) fun _ => True := by
  intro s _ _ hs hrun
  cases hrun
  exact ⟨⟨⟨fun d hd => hs.classes d (hg s.model ▸ hd), hs.currentClass⟩, hs.inBody⟩, trivial⟩

theorem met_recordOperation (o : Operation) :
    Preserves (OffersMet f c nodes) (recordOperation o) fun _ => True := by
  refine Preserves.bind (P := fun _ => True) (preserves_getContext fun _ _ => trivial) fun _ _ => ?_
  split
  · intro s _ _ hs hrun
    cases hrun
    exact ⟨hs.mapClass fun k d hd => ⟨hd.opens, hd.location, hd.name, hd.admits⟩, trivial⟩
  · exact met_modifyModel (by intro; rfl)

theorem met_visitImport (i : NodeId) :
    Preserves (OffersMet f c nodes) (visitImport f i) fun plan => plan = .stop := by
  refine Preserves.bind (P := fun _ => True) (preserves_lift fun _ _ => trivial) fun imports _ => ?_
  refine Preserves.bind (P := fun _ => True) ?_ fun _ _ => preserves_pure rfl
  exact preserves_forM fun _ _ => met_modifyModel (by intro; rfl)

theorem met_visitModule (i : NodeId) :
    Preserves (OffersMet f c nodes) (visitModule f i) fun plan =>
      plan = { inside := f.tree.children i } := by
  refine (met_modifyModel (by intro; rfl)).bind fun _ _ => ?_
  refine Preserves.bind (P := fun _ => True) ?_ fun _ _ => preserves_pure rfl
  refine preserves_forM fun node _ => ?_
  refine Preserves.bind (P := fun _ => True) (preserves_lift fun _ _ => trivial) fun _ _ => ?_
  exact met_modifyModel (by intro; rfl)

/-! ## Collecting -/

variable {offered : List Offer} {s' : State}

theorem HoldsOffers.addNewAttribute {k : NodeId} {d : Class} (h : HoldsOffers f offered k d)
    {name : String} {read : Attribute} (hread : attributeAt f i name = .ok read) :
    HoldsOffers f (offered ++ [⟨i, name, false⟩]) k (addNewAttribute d read) := by
  have hcore := core_addNewAttribute d read
  simp only [Class.core, Prod.mk.injEq] at hcore
  obtain ⟨hnamed, hlocated, -⟩ := hcore
  refine ⟨h.opens, hlocated ▸ h.location, hnamed ▸ h.name, ?_⟩
  rw [hnamed]
  exact h.admits.addNewAttribute hread

/-- One assignment is one more offer, or none. -/
theorem OffersHeld.collectAttribute (h : OffersHeld f c offered s)
    (hrun : (collectAttribute f i).run.run s = (.ok (), s')) :
    OffersHeld f c (offered ++ (selfOffer? f.tree i).toList) s' := by
  unfold Python.collectAttribute at hrun
  unfold selfOffer?
  cases htarget : selfTarget? f.tree i with
  | none =>
    rw [htarget] at hrun
    cases hrun
    rw [Option.map_none, Option.toList_none, List.append_nil]
    exact h
  | some name =>
    rw [htarget] at hrun
    obtain ⟨_, mid, hone, hdone⟩ := exists_of_run_bind hrun
    cases hdone
    obtain ⟨read, _, hlift, hadd⟩ := exists_of_run_bind hone
    obtain ⟨hread, rfl⟩ := ok_of_run_lift hlift
    cases hadd
    exact ⟨h.classes, rel_map h.currentClass fun k d _ hd => hd.addNewAttribute hread⟩

/-- **The attributes of a method's body are added one by one**, so each of them is compared with
those before it. -/
theorem OffersHeld.collectAttributes (h : OffersHeld f c offered s) {body : NodeId}
    (hrun : (collectAttributes f body).run.run s = (.ok (), s')) :
    OffersHeld f c (offered ++ selfOffers f.tree body) s' := by
  unfold Python.collectAttributes at hrun
  rw [selfOffers, List.filterMap_eq_flatMap_toList]
  -- The offers before vary along the assignments of the body.
  generalize f.tree.descendantsWithin body _ _ = assignments at hrun ⊢
  induction assignments generalizing s offered with
  | nil =>
    cases hrun
    rw [List.flatMap_nil, List.append_nil]
    exact h
  | cons i assignments ih =>
    obtain ⟨_, mid, hfirst, hrest⟩ := exists_of_run_bind hrun
    rw [List.flatMap_cons, ← List.append_assoc]
    exact ih (h.collectAttribute hfirst) hrest

/-- **A method is met when the attributes of its body have been collected.** Its scope is closed by
then, so that the body of the class is the innermost scope again. -/
theorem OffersMet.collectAttributes (h : OffersMet f c nodes s)
    (hkind : f.tree.kind i = "function_definition") {name body : NodeId} {scope : String}
    (hname : f.tree.childInField? i "name" = some name)
    (hbody : f.tree.childInField? i "body" = some body)
    (hrun : ((Enclosure.functionBody scope).around (collectAttributes f body)).run.run s =
      (.ok (), s')) : OffersMet f c (nodes ++ [i]) s' := by
  have hrestored : Restored .python s _ :=
    (restores_around (.functionBody scope) (restores_collectAttributes f body) s).1
  rw [hrun] at hrestored
  obtain ⟨inner, hinner, rfl⟩ := exists_of_run_around hrun
  have hopened : OffersHeld f c (nodes.flatMap (offersAt f.tree))
      ((Enclosure.functionBody scope).opened s) := ⟨h.classes, h.currentClass⟩
  have hheld := hopened.collectAttributes hinner
  obtain ⟨scopes, hclosed⟩ := Enclosure.closed_functionBody scope s inner
  refine ⟨?_, fun hc => ?_⟩
  · rw [hclosed, List.flatMap_append, List.flatMap_singleton, offersAt_of_method hkind hname, hbody,
      Option.toList_some, List.flatMap_singleton]
    exact ⟨hheld.classes, hheld.currentClass⟩
  · have hinside := h.inBody hc
    unfold Context.inClassBody at hinside ⊢
    rwa [hrestored.scopes]

/-! ## Visits -/

/-- A class has no attributes before its body is walked. -/
theorem attributes_of_classAt {ctx : Context} {i name body : NodeId} {opened : Class}
    (h : classAt f ctx i name body = .ok opened) : opened.attributes = [] := by
  obtain ⟨location, -, h⟩ := exists_of_bind_ok h
  obtain ⟨annotations, -, h⟩ := exists_of_bind_ok h
  obtain ⟨comment, -, h⟩ := exists_of_bind_ok h
  rw [← Except.ok.inj h, foldl_keeps (g := Class.attributes) (by intros; rfl),
    foldl_keeps (g := Class.attributes) (by intros; rfl)]
  exact foldl_keeps (g := Class.attributes) (by intros; rfl) _ _

variable {mid : State} {plan : Plan}

/-- A class body starts without offers, and the class that is finished has met all of its own. -/
theorem carries_visitClass (hi : Reached (role f.tree) f.tree c i)
    (hkind : f.tree.kind i = "class_definition") (hs : OffersMet f c nodes s)
    (hrun : (visitClass f i).run.run s = (.ok plan, mid)) :
    Carries .python (role f.tree) f (OffersMet f) c nodes i mid (.ofClass f.tree i) plan := by
  have hpass : OffersMet f c (nodes ++ [i]) s :=
    hs.pass fun _ => offersAt_eq_nil (by simp [hkind]) (by simp [hkind])
  unfold visitClass at hrun
  split at hrun
  · rename_i name body hname hbody
    obtain ⟨ctx, s', hcontext, hrun⟩ := exists_of_run_bind hrun
    cases hcontext
    obtain ⟨opened, s', hlift, hrun⟩ := exists_of_run_bind hrun
    obtain ⟨hopened, rfl⟩ := ok_of_run_lift hlift
    rw [Role.ofClass_of_some hname hbody]
    have hopens : Opens (role f.tree) f.tree i := by
      refine ⟨⟨c, hi⟩, ?_⟩
      rw [role, if_pos hkind, Role.ofClass_of_some hname hbody]
    have hfresh := fresh_of_classAt hname hopened
    cases hrun
    refine .opens hbody ?_ fun inner hrestored hinner => ?_
    · refine ⟨⟨hs.classes, .some ⟨hopens, hfresh.location, hfresh.name, ?_⟩⟩, fun _ => rfl⟩
      rw [attributes_of_classAt hopened]
      exact admits_nil f _
    · exact hpass.closeClass (fun _ => ⟨rfl, rfl, rfl⟩) hrestored hinner
  · rename_i hmissing
    rw [Role.ofClass_of_missing hmissing]
    cases hrun
    exact .leaf hpass

theorem carries_visitFunction {name? : Bool → Option String}
    (hkind : f.tree.kind i = "function_definition") (hs : OffersMet f c nodes s)
    (hrun : (visitFunction f i).run.run s = (.ok plan, mid)) :
    Carries .python (role f.tree) f (OffersMet f) c nodes i mid (.leaf name?) plan := by
  have hstatement : f.tree.kind i ≠ "expression_statement" := by simp [hkind]
  unfold visitFunction at hrun
  split at hrun
  · rename_i name hname
    obtain ⟨ctx, s', hcontext, hrun⟩ := exists_of_run_bind hrun
    cases hcontext
    obtain ⟨operation, s', hlift, hrun⟩ := exists_of_run_bind hrun
    obtain ⟨-, rfl⟩ := ok_of_run_lift hlift
    have hrecord : ∀ nodes, Preserves (OffersMet f c nodes)
        (do recordOperation operation; return Plan.stop) fun plan => plan = .stop := fun nodes =>
      (met_recordOperation operation).bind fun _ _ => preserves_pure rfl
    split at hrun
    · split at hrun
      · rename_i body hbody
        obtain ⟨_, s', hcollect, hrun⟩ := exists_of_run_bind hrun
        have hcollected := hs.collectAttributes hkind hname hbody hcollect
        obtain ⟨hmid, rfl⟩ := hrecord _ _ _ _ hcollected hrun
        exact .leaf hmid
      · rename_i hbodiless
        obtain ⟨hmid, rfl⟩ := hrecord _ _ _ _ hs hrun
        refine .leaf (hmid.pass fun _ => ?_)
        rw [offersAt_of_method hkind hname, Option.eq_none_iff_forall_ne_some.mpr hbodiless]
        rfl
    · rename_i houtside
      obtain ⟨hmid, rfl⟩ := hrecord _ _ _ _ hs hrun
      exact .leaf (hmid.pass fun hc => absurd (hs.inClass.trans hc) houtside)
  · rename_i hnameless
    cases hrun
    refine .leaf (hs.pass fun _ => offersAt_eq_nil (fun _ => ?_) hstatement)
    exact Option.eq_none_iff_forall_ne_some.mpr hnameless

theorem carries_visitStatement {name? : Bool → Option String}
    (hkind : f.tree.kind i = "expression_statement") (hs : OffersMet f c nodes s)
    (hrun : (visitStatement f i).run.run s = (.ok plan, mid)) :
    Carries .python (role f.tree) f (OffersMet f) c nodes i mid (.leaf name?) plan := by
  have hpass : ∀ {plan mid}, (pure Plan.stop : Extraction Plan).run.run s = (.ok plan, mid) →
      (c.isSome = true → offersAt f.tree i = []) →
      Carries .python (role f.tree) f (OffersMet f) c nodes i mid (.leaf name?) plan := by
    intro plan mid hrun hnone
    cases hrun
    exact .leaf (hs.pass hnone)
  obtain ⟨ctx, s', hcontext, hrun⟩ := exists_of_run_bind hrun
  cases hcontext
  split at hrun
  · -- Functions are not walked, so where a class is open its body is the innermost scope.
    rename_i houtside
    refine hpass hrun fun hc => ?_
    rw [hs.inBody hc] at houtside
    cases houtside
  · split at hrun
    · rename_i assignment hassignment
      split at hrun
      · rename_i left hleft
        split at hrun
        · rename_i hother
          refine hpass hrun fun _ => ?_
          rw [offersAt_of_statement hkind, bodyOffer?, hassignment, Option.bind_some, hleft,
            Option.bind_some, if_neg hother]
          rfl
        · rename_i hidentifier
          obtain ⟨read, s', hlift, hrun⟩ := exists_of_run_bind hrun
          obtain ⟨hread, rfl⟩ := ok_of_run_lift hlift
          cases hrun
          refine .leaf (hs.mapClass fun k d hd => ⟨hd.opens, hd.location, hd.name, ?_⟩)
          rw [List.flatMap_append, List.flatMap_singleton, offersAt_of_statement hkind, bodyOffer?,
            hassignment, Option.bind_some, hleft, Option.bind_some,
            if_pos (not_not.mp hidentifier)]
          exact hd.admits.addAttribute hread
      · rename_i hnone
        refine hpass hrun fun _ => ?_
        rw [offersAt_of_statement hkind, bodyOffer?, hassignment, Option.bind_some,
          Option.eq_none_iff_forall_ne_some.mpr hnone]
        rfl
    · rename_i hnone
      refine hpass hrun fun _ => ?_
      rw [offersAt_of_statement hkind, bodyOffer?, Option.eq_none_iff_forall_ne_some.mpr hnone]
      rfl

/-- **Every visit carries on what its node offers.** -/
theorem carriedBy_visit (f : File) :
    CarriedBy .python (role f.tree) f (OffersMet f) (visit f) := by
  intro c nodes i s plan mid hi hs hrun
  unfold visit at hrun
  by_cases hclass : f.tree.kind i = "class_definition"
  · rw [role, if_pos hclass]
    rw [hclass] at hrun
    exact carries_visitClass hi hclass hs hrun
  by_cases hfunction : f.tree.kind i = "function_definition"
  · rw [role_of_function hfunction]
    rw [hfunction] at hrun
    exact carries_visitFunction hfunction hs hrun
  by_cases hstatement : f.tree.kind i = "expression_statement"
  · rw [role, if_neg hclass, if_neg hfunction, if_pos (.inl hstatement)]
    rw [hstatement] at hrun
    exact carries_visitStatement hstatement hs hrun
  have hnone : offersAt f.tree i = [] :=
    offersAt_eq_nil (fun hkind => absurd hkind hfunction) hstatement
  have hpass : ∀ {s}, OffersMet f c nodes s → OffersMet f c (nodes ++ [i]) s := fun hs =>
    hs.pass fun _ => hnone
  by_cases himport : f.tree.kind i = "import_statement" ∨ f.tree.kind i = "import_from_statement"
  · rw [role, if_neg hclass, if_neg hfunction, if_pos (.inr himport)]
    have hvisit : (visitImport f i).run.run s = (.ok plan, mid) := by
      rcases himport with hkind | hkind <;> (rw [hkind] at hrun; exact hrun)
    obtain ⟨hmid, rfl⟩ := met_visitImport i s plan mid hs hvisit
    exact .leaf (hpass hmid)
  have hrole : role f.tree i = .through := by
    rw [role, if_neg hclass, if_neg hfunction, if_neg (not_or.mpr ⟨hstatement, himport⟩)]
  rw [hrole]
  by_cases hmodule : f.tree.kind i = "module"
  · rw [hmodule] at hrun
    obtain ⟨hmid, rfl⟩ := met_visitModule i s plan mid hs hrun
    exact .through (hpass hmid)
  · have hother : Construct.ofKind (f.tree.kind i) = .other := by
      simp only [not_or] at himport
      simp only [Construct.ofKind, hmodule, hclass, hfunction, hstatement, himport, if_false]
    rw [hother] at hrun
    cases hrun
    exact .through (hpass hs)

theorem holdsOffers_of_model (hwell : f.tree.WellFormed) (hroot : root < f.tree.size)
    {m : CodeModel} (hm : model f = .ok m) {d : Class} (hd : d ∈ m.classes) :
    ∃ k, HoldsOffers f (offers f.tree k) k d := by
  have hstart : OffersMet f none []
      { model := (CodeModel.new (some .python)).addSource f.path f.tree.source } :=
    ⟨⟨fun _ hd => absurd hd List.not_mem_nil, .none⟩, fun hc => by cases hc⟩
  obtain ⟨final, hfinal, rfl⟩ := meets_of_modelOf hwell (restores_visit f) (carriedBy_visit f) hroot
    (fun plan mid henter => (met_visitModule root _ plan mid hstart henter).symm) hm
  exact hfinal.classes d hd

end

/-! ## Attributes and assignments -/

/-- The node is the first to assign to this attribute of `self` in the methods of the class. -/
def FirstAssigned (t : SyntaxTree) (k : NodeId) (name : String) (i : NodeId) : Prop :=
  MethodAssigns t k name i ∧ ∀ j, MethodAssigns t k name j → j = i ∨ t.Precedes i j

/-- The attributes of a class in terms of the assignments in it. -/
structure FollowsAssignments (f : File) (k : NodeId) (c : Class) : Prop where
  /-- An attribute of the instances has a name that no attribute before it has. -/
  distinct : c.attributes.Pairwise fun a b => b.isStatic = false → a.name ≠ b.name
  first : ∀ a ∈ c.attributes, a.isStatic = false →
    ∃ i, FirstAssigned f.tree k a.name i ∧ Makes f c.name i a
  named : ∀ name, (∃ a ∈ c.attributes, a.name = name) ↔
    ∃ i, MethodAssigns f.tree k name i ∨ BodyAssigns f.tree k name i
  /-- What is assigned first decides whether the attribute is one of the instances. -/
  decided : ∀ name i, FirstAssigned f.tree k name i →
    ((∃ a ∈ c.attributes, a.isStatic = false ∧ a.name = name) ↔
      ∀ j, BodyAssigns f.tree k name j → ¬ f.tree.Precedes j i)

section

variable {f : File} {k : NodeId} (hwell : f.tree.WellFormed) (hroot : root < f.tree.size)

include hwell hroot

/-- The first offer of a name comes from the assignment that is read first. -/
theorem precedes_of_find? {name : String} {o o' : Offer}
    (h : (offers f.tree k).find? (·.name == name) = some o) (ho' : o' ∈ offers f.tree k)
    (hname : o'.name = name) : o' = o ∨ f.tree.Precedes o.assignment o'.assignment := by
  obtain ⟨-, before, after, hsplit, hbefore⟩ := List.find?_eq_some_iff_append.mp h
  have hplaces := assignments_offers hwell hroot k
  rw [hsplit] at ho' hplaces
  rcases List.mem_append.mp ho' with hearlier | hlater
  · have hother := hbefore o' hearlier
    simp [hname] at hother
  rcases List.mem_cons.mp hlater with rfl | hlater
  · exact .inl rfl
  · have hpair : [o, o'].Sublist (before ++ o :: after) :=
      ((List.singleton_sublist.mpr hlater).cons_cons o).trans (List.sublist_append_right _ _)
    exact .inr ((hpair.map Offer.assignment).trans hplaces)

/-- An offer to the instances that is the first of its name comes from the first assignment. -/
theorem firstAssigned_of_find? {name : String} {o : Offer}
    (h : (offers f.tree k).find? (·.name == name) = some o) (hown : o.isStatic = false) :
    FirstAssigned f.tree k name o.assignment := by
  have hname : o.name = name := by simpa using List.find?_some h
  have hassigns : MethodAssigns f.tree k o.name o.assignment := by
    rcases (mem_offers hwell hroot).mp (List.mem_of_find?_eq_some h) with
      ⟨hstatic, -⟩ | ⟨-, hmethod⟩
    · cases hown.symm.trans hstatic
    · exact hmethod
  refine ⟨hname ▸ hassigns, fun j hj => ?_⟩
  have hoffer : (⟨j, name, false⟩ : Offer) ∈ offers f.tree k :=
    (mem_offers hwell hroot).mpr (.inr ⟨rfl, hj⟩)
  exact (precedes_of_find? hwell hroot h hoffer rfl).imp_left (congrArg Offer.assignment)

theorem FirstAssigned.unique {name : String} {i j : NodeId} (hi : FirstAssigned f.tree k name i)
    (hj : FirstAssigned f.tree k name j) : i = j := by
  rcases hj.2 i hi.1 with heq | hji
  · exact heq
  rcases hi.2 j hj.1 with heq | hij
  · exact heq.symm
  · exact absurd hij (hwell.precedes_asymm hroot hji)

theorem followsAssignments_of_admits {c : Class}
    (h : Admits f c.name (offers f.tree k) c.attributes) : FollowsAssignments f k c where
  distinct := h.distinct
  first := by
    intro a ha hstatic
    obtain ⟨o, hfind, hown, hmakes⟩ := h.first a ha hstatic
    exact ⟨o.assignment, firstAssigned_of_find? hwell hroot hfind hown, hmakes⟩
  named := by
    intro name
    rw [h.named]
    constructor
    · rintro ⟨o, ho, rfl⟩
      rcases (mem_offers hwell hroot).mp ho with ⟨-, hbody⟩ | ⟨-, hmethod⟩
      · exact ⟨o.assignment, .inr hbody⟩
      · exact ⟨o.assignment, .inl hmethod⟩
    · rintro ⟨i, hmethod | hbody⟩
      · exact ⟨⟨i, name, false⟩, (mem_offers hwell hroot).mpr (.inr ⟨rfl, hmethod⟩), rfl⟩
      · exact ⟨⟨i, name, true⟩, (mem_offers hwell hroot).mpr (.inl ⟨rfl, hbody⟩), rfl⟩
  decided := by
    intro name i hi
    have hoffer : (⟨i, name, false⟩ : Offer) ∈ offers f.tree k :=
      (mem_offers hwell hroot).mpr (.inr ⟨rfl, hi.1⟩)
    constructor
    · rintro ⟨a, ha, hstatic, rfl⟩ j hj hji
      obtain ⟨o, hfind, hown, -⟩ := h.first a ha hstatic
      have hbody : (⟨j, a.name, true⟩ : Offer) ∈ offers f.tree k :=
        (mem_offers hwell hroot).mpr (.inl ⟨rfl, hj⟩)
      obtain rfl := hi.unique hwell hroot (firstAssigned_of_find? hwell hroot hfind hown)
      rcases precedes_of_find? hwell hroot hfind hbody rfl with heq | hij
      · rw [← heq] at hown
        cases hown
      · exact hwell.precedes_asymm hroot hij hji
    · intro hnone
      obtain ⟨o, hfind⟩ : ∃ o, (offers f.tree k).find? (·.name == name) = some o := by
        rw [← Option.isSome_iff_exists, List.find?_isSome]
        exact ⟨_, hoffer, beq_self_eq_true name⟩
      cases hown : o.isStatic with
      | false => exact h.instances name o hfind hown
      | true =>
        have hname : o.name = name := by simpa using List.find?_some hfind
        rcases (mem_offers hwell hroot).mp (List.mem_of_find?_eq_some hfind) with
          ⟨-, hbody⟩ | ⟨hinstance, -⟩
        · rcases precedes_of_find? hwell hroot hfind hoffer rfl with heq | hbefore
          · rw [← heq] at hown
            cases hown
          · exact absurd hbefore (hnone o.assignment (hname ▸ hbody))
        · cases hown.symm.trans hinstance

end

/-- **The attributes of the instances are the first assignments to `self`.** Whatever a class body
holds, an attribute of the instances is read off the first assignment to its name in the methods
that are reached in the class, and has a name that no attribute recorded before it has. Every name
that is assigned there is the name of an attribute. -/
theorem instance_attributes_first_assigned {f : File} (hbuilt : f.tree.Built) :
    (f.path ≠ "" → ∃ m, model f = .ok m) ∧
      ∀ m, model f = .ok m → ∀ c ∈ m.classes, ∃ k, Opens (role f.tree) f.tree k ∧
        f.locate k .classDeclaration = .ok c.location ∧
        f.tree.fieldText? k "name" = some c.name ∧ FollowsAssignments f k c := by
  have hwell := hbuilt.wellFormed
  refine ⟨fun hpath => ?_, fun m hm c hc => ?_⟩
  · obtain ⟨m, hm, -⟩ := fileModel_of_sound (f := f) ⟨hpath, hwell⟩ .python
    exact ⟨m, hm⟩
  · obtain ⟨k, hholds⟩ := holdsOffers_of_model hwell hbuilt.root_lt_size hm hc
    exact ⟨k, hholds.opens, hholds.location, hholds.name,
      followsAssignments_of_admits hwell hbuilt.root_lt_size hholds.admits⟩

/-- A class whose body and methods assign to the same names, with a function in a method:
`x` in the body first, `y` in both methods, `z` in the inner function, `w` in a method first. -/
def mixedAssignments : SyntaxTree :=
  -- The nodes of `n=v` and `self.n=v`, the first of them with the given number.
  let toName (first start parent : Nat) : List SyntaxNode :=
    [nodeOf "expression_statement" none start (start + 3) (some parent),
      nodeOf "assignment" none start (start + 3) (some first),
      nodeOf "identifier" (some "left") start (start + 1) (some (first + 1)),
      nodeOf "integer" (some "right") (start + 2) (start + 3) (some (first + 1))]
  let toSelf (first start parent : Nat) : List SyntaxNode :=
    [nodeOf "expression_statement" none start (start + 8) (some parent),
      nodeOf "assignment" none start (start + 8) (some first),
      nodeOf "attribute" (some "left") start (start + 6) (some (first + 1)),
      nodeOf "identifier" (some "object") start (start + 4) (some (first + 2)),
      nodeOf "identifier" (some "attribute") (start + 5) (start + 6) (some (first + 2)),
      nodeOf "integer" (some "right") (start + 7) (start + 8) (some (first + 1))]
  let outer := [nodeOf "module" none 0 110 none, nodeOf "class_definition" none 0 110 (some 0),
    nodeOf "identifier" (some "name") 6 7 (some 1), nodeOf "block" (some "body") 10 110 (some 1)]
  let f := [nodeOf "function_definition" none 15 69 (some 3),
    nodeOf "identifier" (some "name") 19 20 (some 8),
    nodeOf "block" (some "body") 30 69 (some 8)]
  let g := [nodeOf "function_definition" none 52 69 (some 10),
    nodeOf "identifier" (some "name") 56 57 (some 23),
    nodeOf "block" (some "body") 61 69 (some 23)]
  let h := [nodeOf "function_definition" none 71 105 (some 3),
    nodeOf "identifier" (some "name") 75 76 (some 32),
    nodeOf "block" (some "body") 86 105 (some 32)]
  (outer ++ toName 4 10 3 ++ f ++ toSelf 11 30 10 ++ toSelf 17 41 10 ++ g ++ toSelf 26 61 25 ++ h ++
    toSelf 35 86 34 ++ toSelf 41 97 34 ++ toName 47 107 3).foldl SyntaxTree.attach
    { source := "class A:\n x=0\n def f(self):\n  self.x=1\n  self.y=2\n  def g(): self.z=3\n" ++
        " def h(self):\n  self.y=4\n  self.w=5\n w=6" }

/-- The attributes of the classes: name, whether of the class, and value. -/
def attributeValues (m : CodeModel) : List (List (String × Bool × Option String)) :=
  m.classes.map fun c => c.attributes.map fun a => (a.name, a.isStatic, a.initialValue)

/-- The instances get `y` and `w` with the values that come first. -/
theorem instance_attributes_first_assigned_mixedAssignments :
    mixedAssignments.Built ∧ ∃ m, model ⟨"m.py", mixedAssignments⟩ = .ok m ∧
      attributeValues m = [[("x", true, some "0"), ("y", false, some "2"), ("w", false, some "5"),
        ("w", true, some "6")]] ∧
      ∀ c ∈ m.classes, ∃ k, Opens (role mixedAssignments) mixedAssignments k ∧
        FollowsAssignments ⟨"m.py", mixedAssignments⟩ k c := by
  have hbuilt : mixedAssignments.Built :=
    SyntaxTree.built_attachAll (by decide +kernel) (by decide +kernel)
  obtain ⟨hread, hfollows⟩ :=
    instance_attributes_first_assigned (f := ⟨"m.py", mixedAssignments⟩) hbuilt
  obtain ⟨m, hm⟩ := hread (by decide)
  have hvalues : (model ⟨"m.py", mixedAssignments⟩).toOption.map attributeValues =
      some [[("x", true, some "0"), ("y", false, some "2"), ("w", false, some "5"),
        ("w", true, some "6")]] := by decide +kernel
  rw [hm] at hvalues
  refine ⟨hbuilt, m, hm, Option.some.inj hvalues, fun c hc => ?_⟩
  obtain ⟨k, hopens, -, -, hattributes⟩ := hfollows m hm c hc
  exact ⟨k, hopens, hattributes⟩

end Extract.Python

end Refactor
