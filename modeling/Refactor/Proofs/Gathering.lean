import Refactor.Proofs.Records

/-!
# Models that follow the outline

**Theorem (`exact_of_modelOf`).** A model is the outline of its tree, if the visits of the language
do what the roles of the nodes say, and if no two classes and no two operations cover the same
bytes. That is, the classes are the nodes that open classes, in closing order, and the operations of
each class, as well as those outside of classes, are the nodes that declare operations there, in
reading order.

`Outcome` says what the visit of a node of each role may do. Then the walk of a node adds what the
node contributes to the outline (`adds_walk`), by induction on the depth. The second half puts the
outcomes of visits together from their steps, most of which an outline does not show (`Unseen`).
-/

namespace Refactor.Extract

open SyntaxTree (root Under)

variable {role : NodeId → Role} {f : File}

/-! ## The walk -/

/-- What the visit of a node may do, by the role of the node: the plan and the state afterwards. -/
inductive Outcome (f : File) (i : NodeId) (s : State) : Role → Plan → State → Prop
  | through {mid : State} (hmid : Untouched s mid) :
    Outcome f i s .through { inside := f.tree.children i } mid
  | opens {mid : State} {body : NodeId} {opened : Class} {visibility : Visibility}
      {finish : Class → Class} (hmid : Untouched s mid)
      (hbody : f.tree.childInField? i "body" = some body)
      (hopened : Fresh f i s.context.inClass opened) (hfinish : ∀ c, (finish c).core = c.core) :
    Outcome f i s .opens
      { inside := f.tree.children body, enclosure := .classBody opened visibility finish } mid
  | skips {name? : Bool → Option String} {mid : State} (hmid : Untouched s mid)
      (hname : name? s.context.inClass = none) : Outcome f i s (.leaf name?) .stop mid
  | declares {name? : Bool → Option String} {mid : State} {o : Operation} (hmid : Untouched s mid)
      (hname : name? s.context.inClass = some o.name)
      (hlocation : f.locate i .methodDeclaration = .ok o.location) (hclass : o.className = none) :
    Outcome f i s (.leaf name?) .stop (mid.record o)

/-- Visits that do what the roles say, if they succeed. -/
def Obeys (role : NodeId → Role) (f : File) (visit : NodeId → Extraction Plan) : Prop :=
  ∀ i s plan mid, (visit i).run.run s = (.ok plan, mid) → Outcome f i s (role i) plan mid

variable (role f) in
/-- Where `c` is open, an extraction that succeeds records the operations of these nodes and the
classes of those, as long as none of them is recorded already. -/
def Adds (c : Option NodeId) (x : Extraction Unit) (declaring opening : List NodeId) : Prop :=
  ∀ others nodes closed s s', Gathered role f c others nodes closed s →
    (nodes ++ declaring).Nodup → (closed ++ opening).Nodup → x.run.run s = (.ok (), s') →
    Gathered role f c others (nodes ++ declaring) (closed ++ opening) s'

section

variable {c : Option NodeId} {x : Extraction Unit}

theorem adds_pure (c : Option NodeId) : Adds role f c (pure ()) [] [] := by
  intro others nodes closed s s' hs _ _ hrun
  cases hrun
  rw [List.append_nil, List.append_nil]
  exact hs

theorem Adds.bind {y : Unit → Extraction Unit}
    {declaring opening declaring' opening' : List NodeId} (hx : Adds role f c x declaring opening)
    (hy : Adds role f c (y ()) declaring' opening') :
    Adds role f c (x >>= y) (declaring ++ declaring') (opening ++ opening') := by
  intro others nodes closed s s' hs hnodes hclosed hrun
  rw [← List.append_assoc] at hnodes hclosed
  obtain ⟨_, mid, hmid, hrest⟩ := exists_of_run_bind hrun
  have hfirst := hx others nodes closed s mid hs (List.Nodup.of_append_left hnodes)
    (List.Nodup.of_append_left hclosed) hmid
  rw [← List.append_assoc, ← List.append_assoc]
  exact hy others _ _ mid s' hfirst hnodes hclosed hrest

variable (role f) in
/-- The walk of a node where `c` is open records what the node contributes to the outline. -/
def AddsBelow (c : Option NodeId) (x : Extraction Unit) (i : NodeId) : Prop :=
  Adds role f c x (among (Declares role f.tree c) (f.tree.below i))
    (among (Opens role f.tree) (f.tree.closing i))

theorem adds_forM {g : NodeId → Extraction Unit} {nodes : List NodeId}
    (hg : ∀ i ∈ nodes, AddsBelow role f c (g i) i) :
    Adds role f c (nodes.forM g) (among (Declares role f.tree c) (nodes.flatMap f.tree.below))
      (among (Opens role f.tree) (nodes.flatMap f.tree.closing)) := by
  induction nodes with
  | nil => exact adds_pure c
  | cons i nodes ih =>
    rw [List.forall_mem_cons] at hg
    rw [List.flatMap_cons, List.flatMap_cons, among_append, among_append]
    exact hg.1.bind (ih hg.2)

end

section

variable (hwell : f.tree.WellFormed) {c : Option NodeId} {i : NodeId} (hi : Reached role f.tree c i)
  {g : NodeId → Extraction Unit}

include hwell hi

theorem addsBelow_of_through (hrole : role i = .through)
    (hg : ∀ j ∈ f.tree.children i, Reached role f.tree c j → AddsBelow role f c (g j) j) :
    AddsBelow role f c (Enclosure.plain.around ((f.tree.children i).forM g)) i := by
  intro others nodes closed s s' hs hnodes hclosed hrun
  obtain ⟨inner, hinner, rfl⟩ := exists_of_run_around hrun
  obtain ⟨hopening, hdeclaring⟩ := contribution_of_through hwell hi hrole
  rw [hdeclaring] at hnodes ⊢
  rw [hopening] at hclosed ⊢
  exact adds_forM (fun j hj => hg j hj (hi.through hrole hj)) others nodes closed s inner hs hnodes
    hclosed hinner

theorem gathered_of_class (hranges : DistinctRanges role f) (hrole : role i = .opens)
    {body : NodeId} (hbody : f.tree.childInField? i "body" = some body)
    (hg : ∀ j ∈ f.tree.children body, Reached role f.tree (some i) j →
      AddsBelow role f (some i) (g j) j) {others : List Operation} {nodes closed : List NodeId}
    {s s' : State} (hs : Gathered role f c others nodes closed s)
    (hclosed : (closed ++ among (Opens role f.tree) (f.tree.closing i)).Nodup) {opened : Class}
    {visibility : Visibility} {finish : Class → Class} (hopened : Fresh f i c.isSome opened)
    (hfinish : ∀ c, (finish c).core = c.core)
    (hrun : ((Enclosure.classBody opened visibility finish).around
      ((f.tree.children body).forM g)).run.run s = (.ok (), s')) :
    Gathered role f c others (nodes ++ among (Declares role f.tree c) (f.tree.below i))
      (closed ++ among (Opens role f.tree) (f.tree.closing i)) s' := by
  obtain ⟨inner, hinner, rfl⟩ := exists_of_run_around hrun
  obtain ⟨hopening, hdeclaring, hmembers⟩ := contribution_of_class hwell hi hrole hbody
  have hroot : root < f.tree.size := Nat.lt_of_le_of_lt (Nat.zero_le i) (hi.lt_size hwell)
  rw [hopening, ← List.append_assoc] at hclosed
  rw [hopening, hdeclaring, List.append_nil, ← List.append_assoc]
  refine hs.closeClass hranges ?_ hfinish fun hmem => ?_
  · -- The class starts out without operations, and the walk of its body records them all.
    rw [hmembers]
    refine adds_forM (fun j hj => hg j hj (hi.member hrole hbody hj)) _ [] closed _ inner
      (hs.openClass hwell hi hrole hopened) ?_ (List.Nodup.of_append_left hclosed) hinner
    rw [List.nil_append, ← hmembers]
    exact (outlined hwell hroot).nodup_operationNodes (some i)
  · exact List.disjoint_of_nodup_append hclosed hmem (List.mem_singleton_self i)

end

section

variable {visit : NodeId → Extraction Plan} (hwell : f.tree.WellFormed)
  (hranges : DistinctRanges role f) (hobeys : Obeys role f visit)

include hwell hranges hobeys

/-- **The walk of a node records what the node contributes to the outline.** -/
theorem adds_walk {depth i : Nat} {c : Option NodeId} (hi : Reached role f.tree c i)
    (hdepth : f.tree.size ≤ depth + i) : AddsBelow role f c (walk visit depth i) i := by
  have hsize : i < f.tree.size := hi.lt_size hwell
  induction depth generalizing i c with
  | zero => omega
  | succ depth ih =>
    have hdeeper : ∀ {c' : Option NodeId} {j : Nat}, i < j → Reached role f.tree c' j →
        AddsBelow role f c' (walk visit depth j) j := fun hlt hj =>
      ih hj (by omega) (hj.lt_size hwell)
    intro others nodes closed s s' hs hnodes hclosed hrun
    obtain ⟨plan, mid, hvisit, hrun⟩ := exists_of_run_bind hrun
    have houtcome := hobeys i s plan mid hvisit
    generalize hrole : role i = r at houtcome
    cases houtcome with
    | through hmid =>
      rw [Plan.follow_eq_around rfl] at hrun
      exact addsBelow_of_through hwell hi hrole
        (fun j hj hreached => hdeeper (hwell.lt_of_mem_children hj).1 hreached)
        others nodes closed mid s' (hs.of_untouched hmid) hnodes hclosed hrun
    | opens hmid hbody hopened hfinish =>
      have hbehind := (hwell.lt_of_mem_children (mem_children_of_childInField? hbody)).1
      rw [Plan.follow_eq_around rfl] at hrun
      exact gathered_of_class hwell hi hranges hrole hbody
        (fun j hj hreached =>
          hdeeper (Nat.lt_trans hbehind (hwell.lt_of_mem_children hj).1) hreached)
        (hs.of_untouched hmid) hclosed (hs.inClass ▸ hopened) hfinish hrun
    | skips hmid hname =>
      cases hrun
      obtain ⟨hopening, hdeclaring⟩ := contribution_of_leaf hwell hi hrole
      rw [hs.inClass] at hname
      rw [hname, Option.isSome_none, if_neg Bool.false_ne_true] at hdeclaring
      rw [hopening, hdeclaring, List.append_nil, List.append_nil]
      exact hs.of_untouched hmid
    | @declares name? mid o hmid hname hlocation hclass =>
      cases hrun
      obtain ⟨hopening, hdeclaring⟩ := contribution_of_leaf hwell hi hrole
      rw [hs.inClass] at hname
      rw [hname, Option.isSome_some, if_pos rfl] at hdeclaring
      rw [hdeclaring] at hnodes
      rw [hopening, hdeclaring, List.append_nil]
      refine (hs.of_untouched hmid).record hranges hlocation ?_ hclass fun hmem => ?_
      · rw [hrole]
        exact hname
      · exact List.disjoint_of_nodup_append hnodes hmem (List.mem_singleton_self i)

/-- **A model that is read by visits which obey the roles is the outline of its tree.** -/
theorem exact_of_modelOf (hroot : root < f.tree.size) {language : Language}
    {enter : Extraction Plan}
    (henter : ∀ s plan mid, enter.run.run s = (.ok plan, mid) → Outcome f root s .through plan mid)
    {m : CodeModel}
    (hm : modelOf language f (do follow f.tree visit (← enter)) = .ok m) : Exact role f m := by
  obtain ⟨final, hrun, rfl⟩ := exists_of_modelOf hm
  obtain ⟨plan, mid, hplan, hrun⟩ := exists_of_run_bind hrun
  have hstart : Gathered role f none [] [] []
      { model := (CodeModel.new (some language)).addSource f.path f.tree.source } :=
    ⟨⟨rfl, .nil⟩, .nil⟩
  cases henter _ plan mid hplan with
  | through hmid =>
    obtain ⟨inner, hinner, hafter⟩ := exists_of_run_follow hrun
    cases hafter
    have hadds := adds_forM fun i hi => adds_walk hwell hranges hobeys (.top hi)
      (Nat.le_add_right f.tree.size i)
    obtain ⟨hclasses, hoperations⟩ := contribution_of_root hwell hroot
    rw [← hclasses, ← hoperations] at hadds
    have houtlined : Outlined role f.tree := outlined hwell hroot
    have hall := hadds [] [] [] mid inner (hstart.of_untouched hmid)
      (houtlined.nodup_operationNodes none) houtlined.nodup_classNodes hinner
    exact ⟨hall.classes, hall.operations.2⟩

end

/-! ## Steps that an outline does not show -/

/-- If the extraction succeeds, an outline shows nothing of it, and the result satisfies `P`. -/
def Unseen {α : Type} (x : Extraction α) (P : α → Prop) : Prop :=
  ∀ s a s', x.run.run s = (.ok a, s') → Untouched s s' ∧ P a

section

variable {α β : Type} {P : α → Prop} {Q : β → Prop}

theorem unseen_pure {a : α} (h : P a) : Unseen (pure a) P := by
  intro s _ _ hrun
  cases hrun
  exact ⟨.refl s, h⟩

theorem Unseen.bind {x : Extraction α} {g : α → Extraction β} (h : Unseen x P)
    (hg : ∀ a, P a → Unseen (g a) Q) : Unseen (x >>= g) Q := by
  intro s b s'' hrun
  obtain ⟨a, s', hx, hga⟩ := exists_of_run_bind hrun
  obtain ⟨hfirst, ha⟩ := h s a s' hx
  obtain ⟨hrest, hb⟩ := hg a ha s' b s'' hga
  exact ⟨hfirst.trans hrest, hb⟩

theorem unseen_lift (x : Except Error α) : Unseen (liftM x) fun a => x = .ok a := by
  intro s a s' hrun
  obtain ⟨hx, rfl⟩ := ok_of_run_lift hrun
  exact ⟨.refl s, hx⟩

theorem unseen_getContext : Unseen getContext fun _ => True := by
  intro s _ _ hrun
  cases hrun
  exact ⟨.refl s, trivial⟩

theorem unseen_forM {g : α → Extraction Unit} (items : List α)
    (hg : ∀ a, Unseen (g a) fun _ => True) : Unseen (items.forM g) fun _ => True := by
  induction items with
  | nil => exact unseen_pure trivial
  | cons a items ih => exact (hg a).bind fun _ _ => ih

theorem unseen_modifyModel {g : CodeModel → CodeModel} (hclasses : ∀ m, (g m).classes = m.classes)
    (hoperations : ∀ m, (g m).operations = m.operations) :
    Unseen (modifyModel g) fun _ => True := by
  intro s _ _ hrun
  cases hrun
  exact ⟨⟨hclasses s.model, hoperations s.model, rfl⟩, trivial⟩

theorem unseen_modifyClass {g : Class → Class} (hg : ∀ c, (g c).core = c.core) :
    Unseen (modifyClass g) fun _ => True := by
  intro s _ _ hrun
  cases hrun
  refine ⟨⟨rfl, rfl, ?_⟩, trivial⟩
  change (s.context.currentClass.map g).map Class.core = _
  rw [Option.map_map]
  exact congrArg (fun change => s.context.currentClass.map change) (funext hg)

/-- The scope of a function is not shown. -/
theorem unseen_inFunction (name : String) {x : Extraction Unit} (h : Unseen x fun _ => True) :
    Unseen ((Enclosure.functionBody name).around x) fun _ => True := by
  intro s _ s' hrun
  obtain ⟨inner, hinner, rfl⟩ := exists_of_run_around hrun
  obtain ⟨scopes, hclosed⟩ := Enclosure.closed_functionBody name s inner
  obtain ⟨⟨hclasses, hoperations, hcore⟩, -⟩ := h _ _ _ hinner
  rw [hclosed]
  exact ⟨⟨hclasses, hoperations, hcore⟩, trivial⟩

theorem unseen_recordImport (f : File) (i : Import) : Unseen (recordImport f i) fun _ => True :=
  unseen_modifyModel (by intro; rfl) (by intro; rfl)

theorem unseen_recordComments (f : File) (i : NodeId) :
    Unseen (recordComments f i) fun _ => True :=
  unseen_forM _ fun node => (unseen_lift (commentAt f node)).bind fun _ _ =>
    unseen_modifyModel (by intro; rfl) (by intro; rfl)

/-- A whole file is opened. -/
theorem unseen_opening (f : File) (i : NodeId) (package : String) :
    Unseen (do
      modifyModel fun m => m.setPackage f.path package
      recordComments f i
      return ({ inside := f.tree.children i } : Plan))
      fun plan => plan = { inside := f.tree.children i } :=
  (unseen_modifyModel (by intro; rfl) (by intro; rfl)).bind fun _ _ =>
    (unseen_recordComments f i).bind fun _ _ => unseen_pure rfl

end

/-! ## Outcomes of visits -/

/-- If the extraction succeeds, the operation is recorded, and apart from that an outline shows
nothing of it. -/
def Declaring (o : Operation) (x : Extraction Plan) : Prop :=
  ∀ s plan s', x.run.run s = (.ok plan, s') →
    plan = .stop ∧ ∃ mid, Untouched s mid ∧ s' = mid.record o

theorem declaring_record (o : Operation) : Declaring o (do recordOperation o; return .stop) := by
  intro s plan s' hrun
  rw [run_bind_of_ok (run_recordOperation o s)] at hrun
  cases hrun
  exact ⟨rfl, s, .refl s, rfl⟩

theorem Declaring.after {α : Type} {P : α → Prop} {o : Operation} {x : Extraction α}
    {g : α → Extraction Plan} (hx : Unseen x P) (hg : ∀ a, P a → Declaring o (g a)) :
    Declaring o (x >>= g) := by
  intro s plan s'' hrun
  obtain ⟨a, s', hfirst, hrest⟩ := exists_of_run_bind hrun
  obtain ⟨huntouched, ha⟩ := hx s a s' hfirst
  obtain ⟨hplan, mid, hmid, hrecord⟩ := hg a ha s' plan s'' hrest
  exact ⟨hplan, mid, huntouched.trans hmid, hrecord⟩

section

variable {i : NodeId} {s mid : State} {plan : Plan}

theorem outcome_through {x : Extraction Plan}
    (h : Unseen x fun plan => plan = { inside := f.tree.children i })
    (hrun : x.run.run s = (.ok plan, mid)) : Outcome f i s .through plan mid := by
  obtain ⟨hmid, rfl⟩ := h s plan mid hrun
  exact .through hmid

theorem outcome_skips {x : Extraction Plan} {name? : Bool → Option String}
    (hname : name? s.context.inClass = none) (h : Unseen x fun plan => plan = .stop)
    (hrun : x.run.run s = (.ok plan, mid)) : Outcome f i s (.leaf name?) plan mid := by
  obtain ⟨hmid, rfl⟩ := h s plan mid hrun
  exact .skips hmid hname

/-- A class is read off its node, and its body is left to the walk. -/
theorem outcome_opens {classOf : Context → Except Error Class} {finish : Class → Class}
    {visibility : Visibility} {body : NodeId}
    (hfresh : ∀ ctx c, classOf ctx = .ok c → Fresh f i ctx.inClass c)
    (hfinish : ∀ c, (finish c).core = c.core) (hbody : f.tree.childInField? i "body" = some body)
    (hrun : (do
      let opened ← classOf (← getContext)
      return {
        inside := f.tree.children body
        enclosure := .classBody opened visibility finish } : Extraction Plan).run.run s =
      (.ok plan, mid)) : Outcome f i s .opens plan mid := by
  obtain ⟨ctx, s', hcontext, hrun⟩ := exists_of_run_bind hrun
  cases hcontext
  obtain ⟨opened, s', hlift, hrun⟩ := exists_of_run_bind hrun
  obtain ⟨hmid, hopened⟩ := unseen_lift _ _ _ _ hlift
  cases hrun
  exact .opens hmid hbody (hfresh _ _ hopened) hfinish

/-- An operation is read off its node and recorded. -/
theorem outcome_declares {operationOf : Context → Except Error Operation}
    {record : Context → Operation → Extraction Plan} {name? : Bool → Option String} {name : String}
    (hname : name? s.context.inClass = some name)
    (hoperation : ∀ o, operationOf s.context = .ok o →
      o.name = name ∧ f.locate i .methodDeclaration = .ok o.location ∧ o.className = none)
    (hrecord : ∀ ctx o, Declaring o (record ctx o))
    (hrun : (do
      let ctx ← getContext
      let operation ← operationOf ctx
      record ctx operation : Extraction Plan).run.run s = (.ok plan, mid)) :
    Outcome f i s (.leaf name?) plan mid := by
  obtain ⟨ctx, s', hcontext, hrun⟩ := exists_of_run_bind hrun
  cases hcontext
  obtain ⟨o, s', hlift, hrun⟩ := exists_of_run_bind hrun
  obtain ⟨hlifted, ho⟩ := unseen_lift _ _ _ _ hlift
  obtain ⟨hnamed, hlocation, hclass⟩ := hoperation o ho
  obtain ⟨rfl, last, hlast, rfl⟩ := hrecord _ o _ _ _ hrun
  exact .declares (hlifted.trans hlast) (hnamed ▸ hname) hlocation hclass

end

end Refactor.Extract
