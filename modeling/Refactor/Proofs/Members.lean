import Mathlib.Data.List.Flatten
import Refactor.Proofs.Outline
import Refactor.Proofs.Restoration

/-!
# The nodes that a walk meets in a class

A walk meets the nodes that are reached where a class is open one after the other, in reading order
(`memberNodes`). Between them it meets the nodes of classes inside, where another class is open.

**Theorem (`meets_of_modelOf`).** Let `I c nodes s` be a property of the state in terms of the nodes
that have been met where `c` is open. If every visit carries it on to one more node (`Carries`), it
holds of the final state with all nodes that are reached outside of classes. Whenever a class is
closed it holds of the state inside with all nodes that are reached in that class.

Nodes that are reached in the same class and are not entered have nothing below them in common, so
that what is listed below each of them is in reading order altogether (`flatMap_members_sublist`).
-/

namespace Refactor.Extract

open SyntaxTree (root Under)

variable (role : NodeId → Role) (t : SyntaxTree) in
/-- The nodes that are reached where `c` is open, in reading order. -/
noncomputable def memberNodes (c : Option NodeId) : List NodeId :=
  among (Reached role t c) (t.below root)

/-! ## What a node adds -/

section

variable {role : NodeId → Role} {t : SyntaxTree} (h : t.WellFormed) {c : Option NodeId} {i : NodeId}

include h

/-- A node that is passed through adds itself and what its children add. -/
theorem members_of_through (hi : Reached role t c i) :
    among (Reached role t c) (t.below i) =
      i :: among (Reached role t c) ((t.children i).flatMap t.below) := by
  rw [h.below_eq (hi.lt_size h), ← List.singleton_append, among_append, among_singleton hi,
    List.singleton_append]

/-- A leaf adds itself alone. -/
theorem members_of_leaf {name? : Bool → Option String} (hi : Reached role t c i)
    (hrole : role i = .leaf name?) : among (Reached role t c) (t.below i) = [i] := by
  rw [among_of_leaf h (fun _ hj => ⟨c, hj⟩) hi hrole (.refl _), among_singleton hi]

/-- A class adds itself to what is around it. -/
theorem members_of_class (hi : Reached role t c i) (hrole : role i = .opens) :
    among (Reached role t c) (t.below i) = [i] := by
  have hsize := hi.lt_size h
  rw [among_of_sublist (List.singleton_sublist.mpr ((h.mem_below hsize).mpr .self))
    (h.nodup_below hsize), among_singleton hi]
  intro j hj hreached
  rw [eq_of_reached_class h hi hrole ((h.mem_below hsize).mp hj) hreached, List.mem_singleton]

/-- The nodes that are reached in a class are those that the children of its body add. -/
theorem memberNodes_of_class {body : NodeId} (hi : Reached role t c i) (hrole : role i = .opens)
    (hbody : t.childInField? i "body" = some body) :
    memberNodes role t (some i) =
      among (Reached role t (some i)) ((t.children body).flatMap t.below) := by
  have hself : ¬ Reached role t (some i) i := fun hi => (hi.opens_context h).2.2 rfl
  rw [memberNodes, among_root_of_opens h ⟨⟨c, hi⟩, hrole⟩ fun _ hj => hj,
    (among_of_opens h (fun _ hj => ⟨some i, hj⟩) hi hrole hbody).1, ← List.singleton_append,
    among_append, among_singleton_of_not hself, List.nil_append]

theorem memberNodes_of_root (hroot : root < t.size) :
    memberNodes role t c = among (Reached role t c) ((t.children root).flatMap t.below) :=
  (among_of_not h hroot fun hreached => hreached.ne_root h rfl).1

theorem mem_memberNodes (hroot : root < t.size) {j : NodeId} :
    j ∈ memberNodes role t c ↔ Reached role t c j := by
  rw [memberNodes, mem_among, h.mem_below hroot]
  exact and_iff_right_of_imp fun hj => hj.under_root h

/-- What leaves list below them is in reading order altogether. -/
theorem flatMap_members_sublist {listed : NodeId → List NodeId}
    (hlisted : ∀ j, Reached role t c j → listed j = [] ∨
      (∃ name?, role j = .leaf name?) ∧ (listed j).Sublist (t.below j)) (hi : i < t.size) :
    ((among (Reached role t c) (t.below i)).flatMap listed).Sublist (t.below i) := by
  refine h.children_induction (P := fun i =>
    ((among (Reached role t c) (t.below i)).flatMap listed).Sublist (t.below i))
    (fun i hi ih => ?_) hi
  have hchildren : ((among (Reached role t c) ((t.children i).flatMap t.below)).flatMap
      listed).Sublist ((t.children i).flatMap t.below) := by
    rw [among, List.filter_flatMap, List.flatMap_assoc]
    exact List.Sublist.flatMap_right _ ih
  have hbehind := hchildren.trans (h.below_eq hi ▸ List.sublist_cons_self i _)
  by_cases hreached : Reached role t c i
  · have hnone : (∀ name?, role i ≠ .leaf name?) → listed i = [] := by
      intro hrole
      refine (hlisted i hreached).resolve_right ?_
      rintro ⟨⟨name?, hleaf⟩, -⟩
      exact hrole name? hleaf
    cases hrole : role i with
    | through =>
      rw [members_of_through h hreached, List.flatMap_cons, hnone (by simp [hrole]),
        List.nil_append]
      exact hbehind
    | opens =>
      rw [members_of_class h hreached hrole, List.flatMap_singleton, hnone (by simp [hrole])]
      exact List.nil_sublist _
    | leaf name? =>
      rw [members_of_leaf h hreached hrole, List.flatMap_singleton]
      rcases hlisted i hreached with hnone | ⟨-, hsublist⟩
      · rw [hnone]
        exact List.nil_sublist _
      · exact hsublist
  · rw [(among_of_not h hi hreached).1]
    exact hbehind

end

/-! ## The walk -/

section

variable (language : Language) (role : NodeId → Role) (f : File)
  (I : Option NodeId → List NodeId → State → Prop)

/-- What the visit of a node leads to, by the role of the node, when these nodes have been met
before where `c` is open. -/
inductive Carries (c : Option NodeId) (nodes : List NodeId) (i : NodeId) (mid : State) :
    Role → Plan → Prop
  | through (hmid : I c (nodes ++ [i]) mid) :
    Carries c nodes i mid .through { inside := f.tree.children i }
  | leaf {name? : Bool → Option String} (hmid : I c (nodes ++ [i]) mid) :
    Carries c nodes i mid (.leaf name?) .stop
  | opens {body : NodeId} {e : Enclosure} (hbody : f.tree.childInField? i "body" = some body)
      (hopened : I (some i) [] (e.opened mid))
      (hclosed : ∀ inner, Restored language (e.opened mid) inner →
        I (some i) (memberNodes role f.tree (some i)) inner →
        I c (nodes ++ [i]) (e.closed mid inner)) :
    Carries c nodes i mid .opens { inside := f.tree.children body, enclosure := e }

/-- Visits that carry the property on, if they succeed. -/
def CarriedBy (visit : NodeId → Extraction Plan) : Prop :=
  ∀ c nodes i s plan mid, Reached role f.tree c i → I c nodes s →
    (visit i).run.run s = (.ok plan, mid) →
    Carries language role f I c nodes i mid (role i) plan

end

section

variable {language : Language} {role : NodeId → Role} {f : File}
  {I : Option NodeId → List NodeId → State → Prop} {c : Option NodeId}

/-- Nodes that are walked one after the other add what they add one after the other. -/
theorem meets_forM {g : NodeId → Extraction Unit} {starts nodes : List NodeId}
    (hg : ∀ j ∈ starts, ∀ nodes s s', I c nodes s → (g j).run.run s = (.ok (), s') →
      I c (nodes ++ among (Reached role f.tree c) (f.tree.below j)) s')
    {s s' : State} (hs : I c nodes s) (hrun : (starts.forM g).run.run s = (.ok (), s')) :
    I c (nodes ++ among (Reached role f.tree c) (starts.flatMap f.tree.below)) s' := by
  induction starts generalizing nodes s with
  | nil =>
    cases hrun
    rw [List.flatMap_nil, among, List.filter_nil, List.append_nil]
    exact hs
  | cons j starts ih =>
    rw [List.forall_mem_cons] at hg
    obtain ⟨_, mid, hfirst, hrest⟩ := exists_of_run_bind hrun
    rw [List.flatMap_cons, among_append, ← List.append_assoc]
    exact ih hg.2 (hg.1 nodes s mid hs hfirst) hrest

variable {visit : NodeId → Extraction Plan} (hwell : f.tree.WellFormed)
  (hrestores : ∀ i, Restores language (visit i) (Plan.Settles language))
  (hcarried : CarriedBy language role f I visit)

include hwell hrestores hcarried

/-- **A walk meets the nodes in their order**, and carries the property on. -/
theorem meets_walk {depth i : Nat} (hi : Reached role f.tree c i)
    (hdepth : f.tree.size ≤ depth + i) {nodes : List NodeId} {s s' : State} (hs : I c nodes s)
    (hrun : (walk visit depth i).run.run s = (.ok (), s')) :
    I c (nodes ++ among (Reached role f.tree c) (f.tree.below i)) s' := by
  have hsize : i < f.tree.size := hi.lt_size hwell
  induction depth generalizing i c nodes s s' with
  | zero => omega
  | succ depth ih =>
    have hdeeper : ∀ {c' : Option NodeId} {j : Nat}, i < j → Reached role f.tree c' j →
        ∀ nodes s s', I c' nodes s → (walk visit depth j).run.run s = (.ok (), s') →
          I c' (nodes ++ among (Reached role f.tree c') (f.tree.below j)) s' :=
      fun hlt hj nodes s s' hs hrun => ih hj (by omega) hs hrun (hj.lt_size hwell)
    obtain ⟨plan, mid, hvisit, hrest⟩ := exists_of_run_bind hrun
    obtain ⟨inner, hinner, hafter⟩ := exists_of_run_follow hrest
    have hcarries := hcarried c nodes i s plan mid hi hs hvisit
    generalize hrole : role i = r at hcarries
    cases hcarries with
    | through hmid =>
      cases hafter
      rw [members_of_through hwell hi, List.append_cons]
      refine meets_forM (fun j hj => ?_) hmid hinner
      exact hdeeper (hwell.lt_of_mem_children hj).1 (hi.through hrole hj)
    | leaf hmid =>
      cases hinner
      cases hafter
      rw [members_of_leaf hwell hi hrole]
      exact hmid
    | @opens body e hbody hopened hclosed =>
      cases hafter
      have hbehind := (hwell.lt_of_mem_children (mem_children_of_childInField? hbody)).1
      have hrestored := restores_forM (f.tree.children body)
        (restores_walk hrestores depth) (e.opened mid)
      rw [hinner] at hrestored
      have hmembers := meets_forM (fun j hj =>
        hdeeper (Nat.lt_trans hbehind (hwell.lt_of_mem_children hj).1)
          (hi.member hrole hbody hj)) hopened hinner
      rw [List.nil_append, ← memberNodes_of_class hwell hi hrole hbody] at hmembers
      rw [members_of_class hwell hi hrole]
      exact hclosed inner hrestored.1 hmembers

/-- **A model is read in a walk that meets all nodes outside of classes.** -/
theorem meets_of_modelOf (hroot : root < f.tree.size) {enter : Extraction Plan}
    (henter : ∀ plan mid, enter.run.run
        { model := (CodeModel.new (some language)).addSource f.path f.tree.source } =
      (.ok plan, mid) → plan = { inside := f.tree.children root } ∧ I none [] mid)
    {m : CodeModel} (hm : modelOf language f (do follow f.tree visit (← enter)) = .ok m) :
    ∃ s, I none (memberNodes role f.tree none) s ∧ s.model = m := by
  obtain ⟨final, hrun, rfl⟩ := exists_of_modelOf hm
  obtain ⟨plan, mid, hplan, hrun⟩ := exists_of_run_bind hrun
  obtain ⟨rfl, hmid⟩ := henter plan mid hplan
  obtain ⟨inner, hinner, hafter⟩ := exists_of_run_follow hrun
  cases hafter
  have hmembers := meets_forM (fun j hj nodes s s' hs hrun =>
    meets_walk hwell hrestores hcarried (.top hj) (Nat.le_add_right f.tree.size j) hs hrun)
    hmid hinner
  rw [List.nil_append, ← memberNodes_of_root hwell hroot] at hmembers
  exact ⟨inner, hmembers, rfl⟩

end

end Refactor.Extract
