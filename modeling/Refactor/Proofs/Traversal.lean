import Refactor.Extract.Walk
import Refactor.Proofs.Arena

/-!
# Walks that succeed and come to an end

`Yields` says that an extraction succeeds from every state, and is put together along the steps of
the extraction. `Walks` is the walk of a tree without a bound on the depth: it holds of a state and
the one that the walk leads to, if the walk comes to an end.

When every visit succeeds and leads on to nodes behind the one it visits, the walk comes to an end
with success, and the depth that `walk` is given is sufficient (`walk_of_forward`).

`Gives` and `Preserves` say nothing of failures: what succeeds has a result with a property, and
leaves a property of the state as it was. They are put together along the steps as well.
-/

namespace Refactor.Extract

variable {α β : Type}

/-! ## Success -/

/-- There is a result. -/
def Succeeds (x : Except Error α) : Prop :=
  ∃ a, x = .ok a

theorem succeeds_ok (a : α) : Succeeds (.ok a) :=
  ⟨a, rfl⟩

theorem Succeeds.bind {x : Except Error α} {g : α → Except Error β} (h : Succeeds x)
    (hg : ∀ a, Succeeds (g a)) : Succeeds (x >>= g) := by
  obtain ⟨a, rfl⟩ := h
  exact hg a

theorem succeeds_collect {f : α → Except Error (Option β)} (items : List α)
    (hf : ∀ a, Succeeds (f a)) : Succeeds (collect f items) := by
  induction items with
  | nil => exact succeeds_ok _
  | cons a items ih => exact (hf a).bind fun found => ih.bind fun others => succeeds_ok _

theorem succeeds_mapM {f : α → Except Error β} (items : List α) (hf : ∀ a, Succeeds (f a)) :
    Succeeds (items.mapM f) := by
  induction items with
  | nil => exact succeeds_ok _
  | cons a items ih =>
    rw [List.mapM_cons]
    exact (hf a).bind fun b => ih.bind fun bs => succeeds_ok _

/-- The extraction succeeds from every state, and its result satisfies `P`. -/
def Yields (x : Extraction α) (P : α → Prop) : Prop :=
  ∀ s, ∃ a s', x.run.run s = (.ok a, s') ∧ P a

variable {P : α → Prop} {Q : β → Prop}

theorem yields_pure {a : α} (h : P a) : Yields (pure a) P := fun s =>
  ⟨a, s, rfl, h⟩

theorem run_bind_of_ok {x : Extraction α} {g : α → Extraction β} {s s' : State} {a : α}
    (h : x.run.run s = (.ok a, s')) : (x >>= g).run.run s = (g a).run.run s' := by
  have hbind : (x >>= g).run.run s =
      (ExceptT.bindCont g (x.run.run s).1).run (x.run.run s).2 := rfl
  rw [hbind, h]
  rfl

theorem Yields.bind {x : Extraction α} {g : α → Extraction β} (h : Yields x P)
    (hg : ∀ a, P a → Yields (g a) Q) : Yields (x >>= g) Q := by
  intro s
  obtain ⟨a, s', hx, ha⟩ := h s
  obtain ⟨b, s'', hga, hb⟩ := hg a ha s'
  exact ⟨b, s'', (run_bind_of_ok hx).trans hga, hb⟩

/-- What succeeds by itself succeeds within an extraction. -/
theorem yields_lift {x : Except Error α} (h : Succeeds x) :
    Yields (liftM x) fun _ => True := by
  obtain ⟨a, rfl⟩ := h
  exact fun s => ⟨a, s, rfl, trivial⟩

theorem yields_getContext : Yields getContext fun _ => True := fun s =>
  ⟨s.context, s, rfl, trivial⟩

theorem yields_modifyContext (f : Context → Context) : Yields (modifyContext f) fun _ => True :=
  fun s => ⟨(), { s with context := f s.context }, rfl, trivial⟩

theorem yields_modifyModel (f : CodeModel → CodeModel) : Yields (modifyModel f) fun _ => True :=
  fun s => ⟨(), { s with model := f s.model }, rfl, trivial⟩

theorem yields_forM {f : α → Extraction Unit} (items : List α)
    (hf : ∀ a, Yields (f a) fun _ => True) : Yields (items.forM f) fun _ => True := by
  induction items with
  | nil => exact yields_pure trivial
  | cons a items ih => exact (hf a).bind fun _ _ => ih

/-! ## Walks without a bound -/

/-- Leaving a function changes the scopes at most. -/
theorem leaveFunction_eq (ctx : Context) :
    ∃ scopes, ctx.leaveFunction = { ctx with scopes := scopes } := by
  unfold Context.leaveFunction
  split
  · exact ⟨_, rfl⟩
  · exact ⟨ctx.scopes, rfl⟩

namespace Enclosure

/-- The state in which the nodes inside are walked. -/
def opened (e : Enclosure) (s : State) : State :=
  { s with context := e.enter s.context }

/-- The state after a successful walk inside. -/
def closed (e : Enclosure) (s inner : State) : State where
  context := (e.leave s.context inner.context).2
  model :=
    match (e.leave s.context inner.context).1 with
    | some c => inner.model.addClass c
    | none => inner.model

/-- The class that is open at the end of a class body is finished and joins the model. -/
theorem model_closed_class {opened finished : Class} {members : Visibility} {finish : Class → Class}
    {s inner : State} (h : inner.context.currentClass = some finished) :
    ((classBody opened members finish).closed s inner).model =
      inner.model.addClass (finish finished) := by
  unfold closed leave Context.leaveClass
  dsimp only
  rw [h]
  rfl

/-- After a function body, what was done inside stays, apart from the scopes. -/
theorem closed_functionBody (name : String) (s inner : State) :
    ∃ scopes, (functionBody name).closed s inner =
      { inner with context := { inner.context with scopes := scopes } } := by
  obtain ⟨scopes, hscopes⟩ := leaveFunction_eq inner.context
  refine ⟨scopes, ?_⟩
  rw [← hscopes]
  rfl

theorem run_around {e : Enclosure} {body : Extraction Unit} {s inner : State}
    (h : body.run.run (e.opened s) = (.ok (), inner)) :
    (e.around body).run.run s = (.ok (), e.closed s inner) := by
  unfold opened at h
  unfold around
  simp only [ExceptT.run_mk, StateT.run] at h ⊢
  rw [h]
  rfl

end Enclosure

theorem yields_around (e : Enclosure) {body : Extraction Unit} (h : Yields body fun _ => True) :
    Yields (e.around body) fun _ => True := by
  intro s
  obtain ⟨_, inner, hbody, -⟩ := h (e.opened s)
  exact ⟨(), e.closed s inner, Enclosure.run_around hbody, trivial⟩

/-- Where a plan leaves nothing to do, only its nodes are walked. -/
theorem Plan.follow_eq_around {plan : Plan} (hafter : plan.after = pure ())
    (walkNode : NodeId → Extraction Unit) :
    plan.follow walkNode = plan.enclosure.around (plan.inside.forM walkNode) := by
  rw [Plan.follow, hafter, bind_pure_unit]

theorem run_follow {plan : Plan} {walkNode : NodeId → Extraction Unit} {s inner s' : State}
    (hinside : (plan.inside.forM walkNode).run.run (plan.enclosure.opened s) = (.ok (), inner))
    (hafter : plan.after.run.run (plan.enclosure.closed s inner) = (.ok (), s')) :
    (plan.follow walkNode).run.run s = (.ok (), s') := by
  unfold Plan.follow
  rw [run_bind_of_ok (Enclosure.run_around hinside)]
  exact hafter

mutual

/-- A walk of a node that comes to an end. -/
inductive Walks (visit : NodeId → Extraction Plan) : NodeId → State → State → Prop
  | node {i : NodeId} {s mid inner s' : State} {plan : Plan}
      (hvisit : (visit i).run.run s = (.ok plan, mid))
      (hinside : WalksAll visit plan.inside (plan.enclosure.opened mid) inner)
      (hafter : plan.after.run.run (plan.enclosure.closed mid inner) = (.ok (), s')) :
      Walks visit i s s'

/-- Walks of several nodes, one after the other, that come to an end. -/
inductive WalksAll (visit : NodeId → Extraction Plan) : List NodeId → State → State → Prop
  | nil {s : State} : WalksAll visit [] s s
  | cons {i : NodeId} {rest : List NodeId} {s mid s' : State} (hfirst : Walks visit i s mid)
      (hrest : WalksAll visit rest mid s') : WalksAll visit (i :: rest) s s'

end

/-- The plan leads on to nodes of the tree behind the one that is visited, and what it leaves to do
succeeds. -/
structure Plan.Forward (t : SyntaxTree) (i : Nat) (plan : Plan) : Prop where
  leads : ∀ j : Nat, j ∈ plan.inside → i < j ∧ j < t.size
  finishes : Yields plan.after fun _ => True

section

variable {t : SyntaxTree} {visit : NodeId → Extraction Plan}

theorem walksAll_of_forall {depth : Nat} {nodes : List NodeId}
    (h : ∀ i ∈ nodes, ∀ s, ∃ s', (walk visit depth i).run.run s = (.ok (), s') ∧
      Walks visit i s s') (s : State) :
    ∃ s', (nodes.forM (walk visit depth)).run.run s = (.ok (), s') ∧ WalksAll visit nodes s s' := by
  induction nodes generalizing s with
  | nil => exact ⟨s, rfl, .nil⟩
  | cons i rest ih =>
    obtain ⟨mid, hfirst, hwalks⟩ := h i List.mem_cons_self s
    obtain ⟨s', hrest, hall⟩ := ih (fun j hj => h j (List.mem_cons_of_mem _ hj)) mid
    exact ⟨s', (run_bind_of_ok hfirst).trans hrest, .cons hwalks hall⟩

/-- **A walk that only leads forward comes to an end, and does so within the given depth.** -/
theorem walk_of_forward (hvisit : ∀ i, Yields (visit i) (Plan.Forward t i)) {depth : Nat}
    {i : Nat} (hi : i < t.size) (hdepth : t.size ≤ depth + i) (s : State) :
    ∃ s', (walk visit depth i).run.run s = (.ok (), s') ∧ Walks visit i s s' := by
  induction depth generalizing i s with
  | zero => omega
  | succ depth ih =>
    obtain ⟨plan, mid, hplan, hforward⟩ := hvisit i s
    have hdeeper : ∀ j ∈ plan.inside, t.size ≤ depth + j := fun j hj => by
      have hlt := (hforward.leads j hj).1
      omega
    obtain ⟨inner, hinside, hall⟩ := walksAll_of_forall
      (fun j hj => ih (hforward.leads j hj).2 (hdeeper j hj)) (plan.enclosure.opened mid)
    obtain ⟨_, s', hafter, -⟩ := hforward.finishes (plan.enclosure.closed mid inner)
    refine ⟨s', ?_, .node hplan hall hafter⟩
    rw [walk, run_bind_of_ok hplan]
    exact run_follow hinside hafter

/-- Following a plan that leads forward comes to an end. -/
theorem follow_of_forward (hvisit : ∀ i, Yields (visit i) (Plan.Forward t i)) {plan : Plan}
    {i : NodeId} (hplan : plan.Forward t i) (s : State) :
    ∃ inner s', (follow t visit plan).run.run s = (.ok (), s') ∧
      WalksAll visit plan.inside (plan.enclosure.opened s) inner ∧
      plan.after.run.run (plan.enclosure.closed s inner) = (.ok (), s') := by
  obtain ⟨inner, hinside, hall⟩ := walksAll_of_forall
    (fun j hj => walk_of_forward hvisit (hplan.leads j hj).2 (Nat.le_add_right t.size j))
    (plan.enclosure.opened s)
  obtain ⟨_, s', hafter, -⟩ := hplan.finishes (plan.enclosure.closed s inner)
  exact ⟨inner, s', run_follow hinside hafter, hall, hafter⟩

end

/-! ## Steps that succeed -/

/-- If there is a result, it satisfies `P`. -/
def Gives (x : Except Error α) (P : α → Prop) : Prop :=
  ∀ a, x = .ok a → P a

theorem gives_ok {a : α} (h : P a) : Gives (.ok a) P := by
  intro _ hresult
  cases hresult
  exact h

/-- What succeeds after a first step succeeds with the result of that step. -/
theorem exists_of_bind_ok {x : Except Error α} {g : α → Except Error β} {b : β}
    (h : x >>= g = .ok b) : ∃ a, x = .ok a ∧ g a = .ok b := by
  cases x with
  | ok a => exact ⟨a, rfl, h⟩
  | error e => cases h

theorem exists_of_map_ok {x : Except Error α} {g : α → β} {b : β} (h : x.map g = .ok b) :
    ∃ a, x = .ok a ∧ g a = b := by
  cases x with
  | ok a => exact ⟨a, rfl, Except.ok.inj h⟩
  | error e => cases h

theorem Gives.bind {x : Except Error α} {g : α → Except Error β} (h : Gives x P)
    (hg : ∀ a, P a → Gives (g a) Q) : Gives (x >>= g) Q := by
  intro b hresult
  obtain ⟨a, hx, hga⟩ := exists_of_bind_ok hresult
  exact hg a (h a hx) b hga

theorem gives_collect {f : α → Except Error (Option β)} {items : List α}
    (hf : ∀ a ∈ items, Gives (f a) fun found => ∀ b ∈ found, Q b) :
    Gives (collect f items) fun found => ∀ b ∈ found, Q b := by
  induction items with
  | nil => exact gives_ok (by simp)
  | cons a items ih =>
    rw [List.forall_mem_cons] at hf
    refine hf.1.bind fun found hfound => (ih hf.2).bind fun others hothers => gives_ok ?_
    rw [List.forall_mem_append]
    exact ⟨fun b hb => hfound b (Option.mem_toList.mp hb), hothers⟩

/-- The elements that have a result give what is collected. -/
theorem mem_collect {g : α → Except Error (Option β)} {items : List α} {found : List β}
    (h : collect g items = .ok found) {b : β} :
    b ∈ found ↔ ∃ a ∈ items, g a = .ok (some b) := by
  induction items generalizing found with
  | nil =>
    cases h
    simp
  | cons a items ih =>
    obtain ⟨first, hfirst, h⟩ := exists_of_bind_ok h
    obtain ⟨others, hothers, h⟩ := exists_of_bind_ok h
    cases h
    rw [List.mem_append, ih hothers, Option.mem_toList]
    simp [hfirst]

theorem gives_mapM {f : α → Except Error β} {items : List α} (hf : ∀ a ∈ items, Gives (f a) Q) :
    Gives (items.mapM f) fun found => ∀ b ∈ found, Q b := by
  induction items with
  | nil => exact gives_ok (by simp)
  | cons a items ih =>
    rw [List.forall_mem_cons] at hf
    rw [List.mapM_cons]
    refine hf.1.bind fun b hb => (ih hf.2).bind fun others hothers => gives_ok ?_
    exact List.forall_mem_cons.mpr ⟨hb, hothers⟩

/-- A sequence that succeeds does so step by step. -/
theorem exists_of_run_bind {x : Extraction α} {g : α → Extraction β} {s s'' : State} {b : β}
    (h : (x >>= g).run.run s = (.ok b, s'')) :
    ∃ a s', x.run.run s = (.ok a, s') ∧ (g a).run.run s' = (.ok b, s'') := by
  have hbind : (x >>= g).run.run s =
      (ExceptT.bindCont g (x.run.run s).1).run (x.run.run s).2 := rfl
  rw [hbind] at h
  cases hx : x.run.run s with
  | mk result s' =>
    rw [hx] at h
    cases result with
    | ok a => exact ⟨a, s', rfl, h⟩
    | error e => cases h

/-- What succeeds by itself leaves the state as it was. -/
theorem ok_of_run_lift {x : Except Error α} {s s' : State} {a : α}
    (h : (liftM x : Extraction α).run.run s = (.ok a, s')) : x = .ok a ∧ s = s' := by
  cases x with
  | ok value =>
    cases h
    exact ⟨rfl, rfl⟩
  | error e => cases h

theorem exists_of_run_around {e : Enclosure} {body : Extraction Unit} {s s' : State}
    (h : (e.around body).run.run s = (.ok (), s')) :
    ∃ inner, body.run.run (e.opened s) = (.ok (), inner) ∧ s' = e.closed s inner := by
  cases hbody : body.run.run (e.opened s) with
  | mk result inner =>
    cases result with
    | ok value =>
      rw [Enclosure.run_around hbody] at h
      cases h
      exact ⟨inner, rfl, rfl⟩
    | error error =>
      unfold Enclosure.opened at hbody
      unfold Enclosure.around at h
      simp only [ExceptT.run_mk, StateT.run] at h hbody
      rw [hbody] at h
      cases h

theorem exists_of_run_follow {plan : Plan} {walkNode : NodeId → Extraction Unit} {s s' : State}
    (h : (plan.follow walkNode).run.run s = (.ok (), s')) :
    ∃ inner,
      (plan.inside.forM walkNode).run.run (plan.enclosure.opened s) = (.ok (), inner) ∧
      plan.after.run.run (plan.enclosure.closed s inner) = (.ok (), s') := by
  obtain ⟨_, mid, haround, hafter⟩ := exists_of_run_bind h
  obtain ⟨inner, hinside, rfl⟩ := exists_of_run_around haround
  exact ⟨inner, hinside, hafter⟩

/-- A model comes from an extraction that succeeds. -/
theorem exists_of_modelOf {language : Language} {f : File} {x : Extraction Unit} {m : CodeModel}
    (h : modelOf language f x = .ok m) :
    ∃ s, x.run.run { model := (CodeModel.new (some language)).addSource f.path f.tree.source } =
      (.ok (), s) ∧ s.model = m := by
  unfold modelOf at h
  dsimp only at h
  cases hrun : x.run.run
      { model := (CodeModel.new (some language)).addSource f.path f.tree.source } with
  | mk result s =>
    rw [hrun] at h
    cases result with
    | ok value => exact ⟨s, rfl, Except.ok.inj h⟩
    | error e => cases h

/-- If the extraction succeeds, the state still satisfies `I`, and the result satisfies `P`. -/
def Preserves (I : State → Prop) (x : Extraction α) (P : α → Prop) : Prop :=
  ∀ s a s', I s → x.run.run s = (.ok a, s') → I s' ∧ P a

section

variable {I : State → Prop}

theorem preserves_pure {a : α} (h : P a) : Preserves I (pure a) P := by
  intro s _ _ hs hrun
  cases hrun
  exact ⟨hs, h⟩

theorem Preserves.bind {x : Extraction α} {g : α → Extraction β} (h : Preserves I x P)
    (hg : ∀ a, P a → Preserves I (g a) Q) : Preserves I (x >>= g) Q := by
  intro s b s'' hs hrun
  obtain ⟨a, s', hx, hga⟩ := exists_of_run_bind hrun
  obtain ⟨hs', ha⟩ := h s a s' hs hx
  exact hg a ha s' b s'' hs' hga

theorem preserves_lift {x : Except Error α} (h : Gives x P) : Preserves I (liftM x) P := by
  intro s a s' hs hrun
  obtain ⟨hx, rfl⟩ := ok_of_run_lift hrun
  exact ⟨hs, h a hx⟩

theorem preserves_getContext {P : Context → Prop} (h : ∀ s, I s → P s.context) :
    Preserves I getContext P := by
  intro s _ _ hs hrun
  cases hrun
  exact ⟨hs, h s hs⟩

theorem preserves_forM {g : α → Extraction Unit} {items : List α}
    (hg : ∀ a ∈ items, Preserves I (g a) fun _ => True) :
    Preserves I (items.forM g) fun _ => True := by
  induction items with
  | nil => exact preserves_pure trivial
  | cons a items ih =>
    rw [List.forall_mem_cons] at hg
    exact hg.1.bind fun _ _ => ih hg.2

end

/-! ## What is open on both sides -/

section

variable {R S : α → β → Prop} {a : Option α} {b : Option β}

theorem isSome_of_rel (h : Option.Rel R a b) : b.isSome = a.isSome := by
  cases h <;> rfl

theorem exists_of_rel_some {x : α} (h : Option.Rel R (some x) b) : ∃ y, b = some y ∧ R x y := by
  cases h with
  | some h => exact ⟨_, rfl, h⟩

theorem rel_map (h : Option.Rel R a b) {g : β → β} (hg : ∀ x y, a = some x → R x y → S x (g y)) :
    Option.Rel S a (b.map g) := by
  cases h with
  | none => exact .none
  | some h => exact .some (hg _ _ rfl h)

end

end Refactor.Extract
