import Refactor.Proofs.ReadingOrder
import Refactor.Proofs.Visits

/-!
# Outlines of syntax trees

A language gives every node a role: a walk goes through it, it opens a class, or it is a leaf, which
is not entered but may declare an operation. `Reached` says by these roles alone which nodes are
reached, and in which class. It makes no mention of a walk.

- `Reached.context_unique`: a node is reached in one way only.
- `Reached.innermost`: the class that is open is the innermost one around the node.
- `not_reached_below_leaf`: nothing is reached below a leaf. Only the root and the bodies of classes
  are entered whatever their role (`Entered`).

The outline of a tree consists of the nodes that open classes, in closing order (`classNodes`), and
of the nodes that declare operations, in reading order (`operationNodes`). A node contributes to it
by its role: what is below its children, itself alone, or itself and what is below its body.
-/

namespace Refactor

namespace Extract

open SyntaxTree (root Under)

/-- What a language makes of a node. -/
inductive Role
  /-- Its children are reached in its place. -/
  | through
  /-- It opens a class. The children of its body are reached. -/
  | opens
  /-- Nothing in it is reached. It may declare an operation, which may depend on whether a class is
  open. -/
  | leaf (name? : Bool → Option String)

namespace Role

/-- A leaf without an operation. -/
def silent : Role :=
  leaf fun _ => none

/-- A class declaration opens a class if it has a name and a body. -/
def ofClass (t : SyntaxTree) (i : NodeId) : Role :=
  if (t.childInField? i "name").isSome && (t.childInField? i "body").isSome then opens else silent

theorem ofClass_of_some {t : SyntaxTree} {i name body : NodeId}
    (hname : t.childInField? i "name" = some name) (hbody : t.childInField? i "body" = some body) :
    ofClass t i = opens := by
  rw [ofClass, hname, hbody]
  rfl

theorem ofClass_of_missing {t : SyntaxTree} {i : NodeId}
    (h : ∀ name body, t.childInField? i "name" = some name →
      t.childInField? i "body" = some body → False) : ofClass t i = silent := by
  refine if_neg fun hboth => ?_
  rw [Bool.and_eq_true] at hboth
  obtain ⟨name, hname⟩ := Option.isSome_iff_exists.mp hboth.1
  obtain ⟨body, hbody⟩ := Option.isSome_iff_exists.mp hboth.2
  exact h name body hname hbody

/-- The name of the operation that is declared, with a class open or not. -/
def name? (inside : Bool) : Role → Option String
  | leaf name? => name? inside
  | _ => none

theorem name?_ofClass (t : SyntaxTree) (i : NodeId) (inside : Bool) :
    (ofClass t i).name? inside = none := by
  unfold ofClass
  split <;> rfl

end Role

section

variable (role : NodeId → Role) (t : SyntaxTree)

/-- The nodes that are reached, each with the class that is open there. The root is taken for the
whole file, whatever its role. -/
inductive Reached : Option NodeId → NodeId → Prop
  | top {j : NodeId} (hj : j ∈ t.children root) : Reached none j
  | through {c : Option NodeId} {i j : NodeId} (hi : Reached c i) (hrole : role i = .through)
      (hj : j ∈ t.children i) : Reached c j
  | member {c : Option NodeId} {i body j : NodeId} (hi : Reached c i) (hrole : role i = .opens)
      (hbody : t.childInField? i "body" = some body) (hj : j ∈ t.children body) :
      Reached (some i) j

/-- A node that is reached and opens a class. -/
def Opens (k : NodeId) : Prop :=
  (∃ c, Reached role t c k) ∧ role k = .opens

/-- A node that is reached where `c` is open and declares an operation there. -/
def Declares (c : Option NodeId) (j : NodeId) : Prop :=
  Reached role t c j ∧ ((role j).name? c.isSome).isSome = true

open Classical in
/-- The nodes with a property, in the order in which they are given. -/
noncomputable def among (P : NodeId → Prop) (nodes : List NodeId) : List NodeId :=
  nodes.filter fun j => P j

/-- The nodes that open classes, in closing order: inner classes before their outer class. -/
noncomputable def classNodes : List NodeId :=
  among (Opens role t) (t.closing root)

/-- The nodes that declare operations where `c` is open, in reading order. -/
noncomputable def operationNodes (c : Option NodeId) : List NodeId :=
  among (Declares role t c) (t.below root)

end

variable {role : NodeId → Role} {t : SyntaxTree} (h : t.WellFormed) {c c' : Option NodeId}

/-! ## How nodes are reached -/

include h in
theorem eq_of_mem_children {a b j : NodeId} (ha : j ∈ t.children a) (hb : j ∈ t.children b) :
    a = b :=
  Option.some.inj ((h.mem_children.mp ha).2.symm.trans (h.mem_children.mp hb).2)

include h in
theorem root_not_mem_children (i : NodeId) : root ∉ t.children i := fun hroot =>
  Nat.not_lt_zero i (h.lt_of_mem_children hroot).1

namespace Reached

include h

theorem ne_root {j : NodeId} (hj : Reached role t c j) : j ≠ root := by
  rintro rfl
  cases hj with
  | top hj => exact root_not_mem_children h _ hj
  | through _ _ hj => exact root_not_mem_children h _ hj
  | member _ _ _ hj => exact root_not_mem_children h _ hj

theorem lt_size {j : NodeId} (hj : Reached role t c j) : j < t.size := by
  cases hj with
  | top hj => exact (h.lt_of_mem_children hj).2
  | through _ _ hj => exact (h.lt_of_mem_children hj).2
  | member _ _ _ hj => exact (h.lt_of_mem_children hj).2

/-- The children of a class, its body among them, are passed over. -/
theorem not_reached_child {i j : NodeId} (hi : Reached role t c i) (hrole : role i = .opens)
    (hj : j ∈ t.children i) : ¬ Reached role t c' j := by
  -- A child that is reached all the same makes its parent the body of a class around it, which is
  -- then a child that is reached as well.
  induction j using Nat.strongRecOn generalizing c c' i with
  | ind j ih =>
    intro hreached
    cases hreached with
    | top htop => exact hi.ne_root h (eq_of_mem_children h hj htop)
    | through _ hthrough hj' =>
      obtain rfl := eq_of_mem_children h hj hj'
      rw [hrole] at hthrough
      cases hthrough
    | member houter hopens hbody hj' =>
      obtain rfl := eq_of_mem_children h hj hj'
      have hchild := mem_children_of_childInField? hbody
      exact ih i (h.lt_of_mem_children hj).1 houter hopens hchild hi

/-- **A node is reached in one way only.** -/
theorem context_unique {j : NodeId} (hj : Reached role t c j) (hj' : Reached role t c' j) :
    c = c' := by
  induction hj generalizing c' with
  | top hj =>
    cases hj' with
    | top _ => rfl
    | through hi _ hj' => exact absurd (eq_of_mem_children h hj' hj) (hi.ne_root h)
    | member _ _ hbody hj' =>
      obtain rfl := eq_of_mem_children h hj hj'
      exact absurd (mem_children_of_childInField? hbody) (root_not_mem_children h _)
  | through hi hrole hj ih =>
    cases hj' with
    | top hj' => exact absurd (eq_of_mem_children h hj hj') (hi.ne_root h)
    | through hi' _ hj' =>
      obtain rfl := eq_of_mem_children h hj hj'
      exact ih hi'
    | member houter hopens hbody hj' =>
      obtain rfl := eq_of_mem_children h hj hj'
      exact absurd hi (houter.not_reached_child h hopens (mem_children_of_childInField? hbody))
  | member houter hopens hbody hj =>
    cases hj' with
    | top hj' =>
      obtain rfl := eq_of_mem_children h hj hj'
      exact absurd (mem_children_of_childInField? hbody) (root_not_mem_children h _)
    | through hi' _ hj' =>
      obtain rfl := eq_of_mem_children h hj hj'
      exact absurd hi' (houter.not_reached_child h hopens (mem_children_of_childInField? hbody))
    | member _ _ hbody' hj' =>
      obtain rfl := eq_of_mem_children h hj hj'
      rw [eq_of_mem_children h (mem_children_of_childInField? hbody)
        (mem_children_of_childInField? hbody')]

/-- What lies above a node that is reached is reached and entered itself, or the body of a class
that is. -/
theorem cases_above {i j : NodeId} (hj : Reached role t c j) (hij : Under t i j) (hne : i ≠ j)
    (hroot : i ≠ root) :
    (∃ c', Reached role t c' i ∧ (role i = .through ∨ role i = .opens)) ∨
      ∃ k, Opens role t k ∧ t.childInField? k "body" = some i := by
  induction hj with
  | top hj =>
    have habove := (h.under_parent hj hij).resolve_left hne
    exact absurd (Nat.le_zero.mp (h.le_of_under habove)) hroot
  | @through c i' j hi hrole hj ih =>
    have habove := (h.under_parent hj hij).resolve_left hne
    by_cases heq : i = i'
    · subst heq
      exact .inl ⟨c, hi, .inl hrole⟩
    · exact ih habove heq
  | @member c i' body j hi hrole hbody hj ih =>
    have habove := (h.under_parent hj hij).resolve_left hne
    rcases h.under_parent (mem_children_of_childInField? hbody) habove with rfl | habove
    · exact .inr ⟨i', ⟨⟨c, hi⟩, hrole⟩, hbody⟩
    · by_cases heq : i = i'
      · subst heq
        exact .inl ⟨c, hi, .inr hrole⟩
      · exact ih habove heq

/-- Below a class, nodes are reached through its body, and in that class or one below it. -/
theorem within_class {i j : NodeId} (hj : Reached role t c j) (hij : Under t i j) (hne : i ≠ j)
    (hi : Reached role t c' i) (hrole : role i = .opens) :
    (∃ k, c = some k ∧ Under t i k) ∧
      ∃ body, t.childInField? i "body" = some body ∧ ∃ a ∈ t.children body, Under t a j := by
  induction hj with
  | top hj =>
    have habove := (h.under_parent hj hij).resolve_left hne
    exact absurd (Nat.le_zero.mp (h.le_of_under habove)) (hi.ne_root h)
  | @through c i' j _ hthrough hj ih =>
    have habove := (h.under_parent hj hij).resolve_left hne
    have heq : i ≠ i' := by
      rintro rfl
      rw [hrole] at hthrough
      cases hthrough
    obtain ⟨hcontext, body, hbody, a, ha, hunder⟩ := ih habove heq
    exact ⟨hcontext, body, hbody, a, ha, hunder.trans (h.under_of_mem_children hj)⟩
  | @member c i' body' j hi' hopens hbody' hj ih =>
    have hchild := mem_children_of_childInField? hbody'
    have habove := (h.under_parent hj hij).resolve_left hne
    have hbelow : Under t i i' := by
      rcases h.under_parent hchild habove with rfl | habove
      · exact absurd hi (hi'.not_reached_child h hopens hchild)
      · exact habove
    by_cases heq : i = i'
    · subst heq
      exact ⟨⟨i, rfl, .self⟩, body', hbody', j, hj, .self⟩
    · obtain ⟨-, body, hbody, a, ha, hunder⟩ := ih hbelow heq
      exact ⟨⟨i', rfl, hbelow⟩, body, hbody, a, ha,
        hunder.trans ((h.under_of_mem_children hchild).trans (h.under_of_mem_children hj))⟩

/-- The class that is open is reached itself, and the node lies below it. -/
theorem opens_context {k j : NodeId} (hj : Reached role t (some k) j) :
    Opens role t k ∧ Under t k j ∧ k ≠ j := by
  generalize hc : some k = c at hj
  induction hj with
  | top _ => cases hc
  | through _ _ hj ih =>
    obtain ⟨hopens, hunder, -⟩ := ih hc
    have hlt := (h.lt_of_mem_children hj).1
    exact ⟨hopens, hunder.trans (h.under_of_mem_children hj),
      Nat.ne_of_lt (Nat.lt_of_le_of_lt (h.le_of_under hunder) hlt)⟩
  | @member c i body j hi hrole hbody hj =>
    obtain rfl := Option.some.inj hc
    have hchild := mem_children_of_childInField? hbody
    exact ⟨⟨⟨c, hi⟩, hrole⟩,
      (h.under_of_mem_children hchild).trans (h.under_of_mem_children hj),
      Nat.ne_of_lt (Nat.lt_trans (h.lt_of_mem_children hchild).1 (h.lt_of_mem_children hj).1)⟩

theorem under_root {j : NodeId} (hj : Reached role t c j) : Under t root j := by
  induction hj with
  | top hj => exact h.under_of_mem_children hj
  | through _ _ hj ih => exact ih.trans (h.under_of_mem_children hj)
  | member _ _ hbody hj ih =>
    have hchild := mem_children_of_childInField? hbody
    exact ih.trans ((h.under_of_mem_children hchild).trans (h.under_of_mem_children hj))

end Reached

/-- `c` is the innermost class around the node that is reached, if there is one. -/
def Innermost (role : NodeId → Role) (t : SyntaxTree) : Option NodeId → NodeId → Prop
  | none, j => ∀ k, Opens role t k → Under t k j → k = j
  | some k, j => Opens role t k ∧ Under t k j ∧ k ≠ j ∧
    ∀ k', Opens role t k' → Under t k' j → k' = j ∨ Under t k' k

include h

/-- **The class that is open at a node is the innermost one around it.** -/
theorem Reached.innermost {j : NodeId} (hj : Reached role t c j) : Innermost role t c j := by
  have habove : ∀ k, Opens role t k → Under t k j → k = j ∨ ∃ k', c = some k' ∧ Under t k k' := by
    rintro k ⟨⟨c', hk⟩, hrole⟩ hunder
    by_cases heq : k = j
    · exact .inl heq
    · exact .inr (hj.within_class h hunder heq hk hrole).1
  cases c with
  | none =>
    intro k hk hunder
    rcases habove k hk hunder with heq | ⟨k', hnone, -⟩
    · exact heq
    · cases hnone
  | some k =>
    obtain ⟨hopens, hunder, hne⟩ := hj.opens_context h
    refine ⟨hopens, hunder, hne, fun k' hk' hunder' => ?_⟩
    rcases habove k' hk' hunder' with heq | ⟨k'', hk'', hunder'⟩
    · exact .inl heq
    · obtain rfl := Option.some.inj hk''
      exact .inr hunder'

/-- The nodes that are entered whatever their role: the root and the bodies of classes. -/
def Entered (role : NodeId → Role) (t : SyntaxTree) (i : NodeId) : Prop :=
  i = root ∨ ∃ k, Opens role t k ∧ t.childInField? k "body" = some i

/-- **Nothing is reached below a leaf** that is not entered all the same. -/
theorem not_reached_below_leaf {i j : NodeId} {name? : Bool → Option String}
    (hrole : role i = .leaf name?) (hi : ¬ Entered role t i) (hij : Under t i j) (hne : i ≠ j) :
    ¬ Reached role t c j := by
  intro hj
  rcases hj.cases_above h hij hne fun hroot => hi (.inl hroot) with
    ⟨c', -, hthrough | hopens⟩ | hbody
  · cases hrole.symm.trans hthrough
  · cases hrole.symm.trans hopens
  · exact hi (.inr hbody)

/-- What is reached is neither the root nor the body of a class. -/
theorem Reached.not_entered {i : NodeId} (hi : Reached role t c i) : ¬ Entered role t i := by
  rintro (hroot | ⟨k, ⟨⟨_, hk⟩, hopens⟩, hbody⟩)
  · exact hi.ne_root h hroot
  · exact hk.not_reached_child h hopens (mem_children_of_childInField? hbody) hi

/-! ## What a node contributes -/

omit h in
theorem mem_among {P : NodeId → Prop} {nodes : List NodeId} {j : NodeId} :
    j ∈ among P nodes ↔ j ∈ nodes ∧ P j := by
  simp only [among, List.mem_filter, decide_eq_true_eq]

omit h in
theorem among_append (P : NodeId → Prop) (nodes others : List NodeId) :
    among P (nodes ++ others) = among P nodes ++ among P others :=
  List.filter_append ..

omit h in
theorem among_eq_nil {P : NodeId → Prop} {nodes : List NodeId} (hP : ∀ j ∈ nodes, ¬ P j) :
    among P nodes = [] :=
  List.filter_eq_nil_iff.mpr fun j hj => by simpa using hP j hj

omit h in
theorem among_eq_self {P : NodeId → Prop} {nodes : List NodeId} (hP : ∀ j ∈ nodes, P j) :
    among P nodes = nodes :=
  List.filter_eq_self.mpr fun j hj => by simpa using hP j hj

omit h in
theorem among_singleton {P : NodeId → Prop} {i : NodeId} (hi : P i) : among P [i] = [i] :=
  among_eq_self fun _ hj => List.mem_singleton.mp hj ▸ hi

omit h in
theorem among_singleton_of_not {P : NodeId → Prop} {i : NodeId} (hi : ¬ P i) : among P [i] = [] :=
  among_eq_nil fun _ hj => List.mem_singleton.mp hj ▸ hi

omit h in
/-- Nodes that are given in addition and do not have the property make no difference. -/
theorem among_of_sublist {P : NodeId → Prop} {fewer nodes : List NodeId}
    (hsub : fewer.Sublist nodes) (hnodup : nodes.Nodup) (hall : ∀ j ∈ nodes, P j → j ∈ fewer) :
    among P nodes = among P fewer := by
  have hperm : (among P nodes).Perm (among P fewer) := by
    refine (List.perm_ext_iff_of_nodup (hnodup.filter _) ((hnodup.sublist hsub).filter _)).mpr ?_
    intro j
    rw [← among, ← among, mem_among, mem_among]
    exact ⟨fun hj => ⟨hall j hj.1 hj.2, hj.2⟩, fun hj => ⟨hsub.subset hj.1, hj.2⟩⟩
  exact ((hsub.filter _).eq_of_length hperm.length_eq.symm).symm

/-- What is below its children, for a node without the property. -/
theorem among_of_not {P : NodeId → Prop} {i : NodeId} (hsize : i < t.size) (hi : ¬ P i) :
    among P (t.below i) = among P ((t.children i).flatMap t.below) ∧
      among P (t.closing i) = among P ((t.children i).flatMap t.closing) := by
  rw [h.below_eq hsize, h.closing_eq hsize, ← List.singleton_append, among_append, among_append,
    among_singleton_of_not hi, List.nil_append, List.append_nil]
  exact ⟨rfl, rfl⟩

section

variable {P : NodeId → Prop} (hP : ∀ j, P j → ∃ c, Reached role t c j)

include hP

/-- Nothing but itself, for a leaf. -/
theorem among_of_leaf {i : NodeId} {name? : Bool → Option String} (hi : Reached role t c i)
    (hrole : role i = .leaf name?) {nodes : List NodeId} (hnodes : nodes.Perm (t.below i)) :
    among P nodes = among P [i] := by
  have hmem : ∀ j, j ∈ nodes ↔ Under t i j := fun j =>
    hnodes.mem_iff.trans (h.mem_below (hi.lt_size h))
  refine among_of_sublist (List.singleton_sublist.mpr ((hmem i).mpr .self))
    (hnodes.nodup_iff.mpr (h.nodup_below (hi.lt_size h))) fun j hj hPj => ?_
  obtain ⟨c', hreached⟩ := hP j hPj
  by_cases heq : i = j
  · rw [heq, List.mem_singleton]
  · exact absurd hreached (not_reached_below_leaf h hrole (hi.not_entered h) ((hmem j).mp hj) heq)

/-- Itself and what is below the children of its body, for a class. -/
theorem among_of_opens {i body : NodeId} (hi : Reached role t c i) (hrole : role i = .opens)
    (hbody : t.childInField? i "body" = some body) :
    among P (t.below i) = among P (i :: (t.children body).flatMap t.below) ∧
      among P (t.closing i) = among P ((t.children body).flatMap t.closing ++ [i]) := by
  have hchild := mem_children_of_childInField? hbody
  have hsize := hi.lt_size h
  have hbodySize := (h.lt_of_mem_children hchild).2
  have hinside : ∀ j, Under t i j → P j → j = i ∨ ∃ a ∈ t.children body, Under t a j := by
    intro j hunder hPj
    obtain ⟨c', hreached⟩ := hP j hPj
    by_cases heq : i = j
    · exact .inl heq.symm
    · obtain ⟨-, body', hbody', a, ha, hunder⟩ := hreached.within_class h hunder heq hi hrole
      obtain rfl := Option.some.inj (hbody.symm.trans hbody')
      exact .inr ⟨a, ha, hunder⟩
  constructor
  · refine among_of_sublist ?_ (h.nodup_below hsize) fun j hj hPj => ?_
    · have hsub : (t.below body).Sublist ((t.children i).flatMap t.below) :=
        List.sublist_flatten_of_mem (List.mem_map_of_mem hchild)
      rw [h.below_eq hbodySize] at hsub
      rw [h.below_eq hsize]
      exact ((List.sublist_cons_self _ _).trans hsub).cons_cons i
    · rw [List.mem_cons, List.mem_flatMap]
      refine (hinside j ((h.mem_below hsize).mp hj) hPj).imp_right ?_
      rintro ⟨a, ha, hunder⟩
      exact ⟨a, ha, (h.mem_below (h.lt_of_mem_children ha).2).mpr hunder⟩
  · refine among_of_sublist ?_ (h.nodup_closing hsize) fun j hj hPj => ?_
    · have hsub : (t.closing body).Sublist ((t.children i).flatMap t.closing) :=
        List.sublist_flatten_of_mem (List.mem_map_of_mem hchild)
      rw [h.closing_eq hbodySize] at hsub
      rw [h.closing_eq hsize]
      exact ((List.sublist_append_left _ _).trans hsub).append_right [i]
    · rw [List.mem_append, List.mem_singleton, List.mem_flatMap, or_comm]
      refine (hinside j ((h.mem_closing hsize).mp hj) hPj).imp_right ?_
      rintro ⟨a, ha, hunder⟩
      exact ⟨a, ha, (h.mem_closing (h.lt_of_mem_children ha).2).mpr hunder⟩

end

omit h in
theorem not_opens_of_role {i : NodeId} {r : Role} (hrole : role i = r) (hr : r ≠ .opens) :
    ¬ Opens role t i := fun hopens =>
  hr (hrole.symm.trans hopens.2)

/-- A node that is passed through contributes what is below its children. -/
theorem contribution_of_through {i : NodeId} (hi : Reached role t c i) (hrole : role i = .through) :
    among (Opens role t) (t.closing i) = among (Opens role t) ((t.children i).flatMap t.closing) ∧
      among (Declares role t c) (t.below i) =
        among (Declares role t c) ((t.children i).flatMap t.below) := by
  have hdeclares : ¬ Declares role t c i := fun hdeclares => by
    have hname := hdeclares.2
    rw [hrole] at hname
    cases hname
  exact ⟨(among_of_not h (hi.lt_size h) (not_opens_of_role hrole (by simp))).2,
    (among_of_not h (hi.lt_size h) hdeclares).1⟩

/-- A leaf contributes itself, if it declares an operation. -/
theorem contribution_of_leaf {i : NodeId} {name? : Bool → Option String}
    (hi : Reached role t c i) (hrole : role i = .leaf name?) :
    among (Opens role t) (t.closing i) = [] ∧
      among (Declares role t c) (t.below i) =
        if (name? c.isSome).isSome = true then [i] else [] := by
  have hname : (role i).name? c.isSome = name? c.isSome := by
    rw [hrole]
    rfl
  rw [among_of_leaf h (fun _ hk => hk.1) hi hrole (h.closing_perm_below (hi.lt_size h)),
    among_of_leaf h (fun j hj => ⟨c, hj.1⟩) hi hrole (.refl _)]
  refine ⟨among_singleton_of_not (not_opens_of_role hrole (by simp)), ?_⟩
  split
  · rename_i hsome
    exact among_singleton ⟨hi, hname ▸ hsome⟩
  · rename_i hnone
    exact among_singleton_of_not fun hdeclares => hnone (hname ▸ hdeclares.2)

/-- What is reached in a class lies below it. -/
theorem among_root_of_opens {P : NodeId → Prop} {k : NodeId} (hk : Opens role t k)
    (hP : ∀ j, P j → Reached role t (some k) j) : among P (t.below root) = among P (t.below k) := by
  obtain ⟨⟨c', hk⟩, -⟩ := hk
  have hroot : root < t.size := Nat.lt_of_le_of_lt (Nat.zero_le k) (hk.lt_size h)
  refine among_of_sublist (h.below_sublist (hk.under_root h)) (h.nodup_below hroot) ?_
  intro j _ hj
  exact (h.mem_below (hk.lt_size h)).mpr ((hP j hj).opens_context h).2.1

/-- In a class nothing is reached where the class around it is open. -/
theorem eq_of_reached_class {i j : NodeId} (hi : Reached role t c i) (hrole : role i = .opens)
    (hij : Under t i j) (hj : Reached role t c j) : j = i := by
  by_contra hne
  obtain ⟨⟨k, rfl, hunder⟩, -⟩ := hj.within_class h hij (Ne.symm hne) hi hrole
  obtain ⟨-, habove, hk⟩ := hi.opens_context h
  exact hk (Nat.le_antisymm (h.le_of_under habove) (h.le_of_under hunder))

/-- A class contributes no operation to what is around it. -/
theorem not_declares_of_class {i j : NodeId} (hi : Reached role t c i) (hrole : role i = .opens)
    (hij : Under t i j) : ¬ Declares role t c j := by
  rintro ⟨hj, hname⟩
  rw [eq_of_reached_class h hi hrole hij hj, hrole] at hname
  cases hname

/-- A class contributes the classes below the children of its body and then itself. Its operations
are declared below these children, and none around it. -/
theorem contribution_of_class {i body : NodeId} (hi : Reached role t c i) (hrole : role i = .opens)
    (hbody : t.childInField? i "body" = some body) :
    among (Opens role t) (t.closing i) =
        among (Opens role t) ((t.children body).flatMap t.closing) ++ [i] ∧
      among (Declares role t c) (t.below i) = [] ∧
      operationNodes role t (some i) =
        among (Declares role t (some i)) ((t.children body).flatMap t.below) := by
  have hself : Opens role t i := ⟨⟨c, hi⟩, hrole⟩
  have hnot : ¬ Declares role t (some i) i := fun hdeclares =>
    (hdeclares.1.opens_context h).2.2 rfl
  refine ⟨?_, among_eq_nil fun j hj => ?_, ?_⟩
  · rw [(among_of_opens h (fun _ hk => hk.1) hi hrole hbody).2, among_append, among_singleton hself]
  · exact not_declares_of_class h hi hrole ((h.mem_below (hi.lt_size h)).mp hj)
  · rw [operationNodes, among_root_of_opens h hself fun _ hj => hj.1,
      (among_of_opens h (fun j hj => ⟨some i, hj.1⟩) hi hrole hbody).1, ← List.singleton_append,
      among_append, among_singleton_of_not hnot, List.nil_append]

/-- The root contributes what is below its children. -/
theorem contribution_of_root (hsize : root < t.size) :
    classNodes role t = among (Opens role t) ((t.children root).flatMap t.closing) ∧
      operationNodes role t none =
        among (Declares role t none) ((t.children root).flatMap t.below) := by
  have hnot : ∀ {c : Option NodeId}, ¬ Reached role t c root := fun hreached =>
    hreached.ne_root h rfl
  refine ⟨(among_of_not h hsize ?_).2, (among_of_not h hsize ?_).1⟩
  · rintro ⟨⟨c, hreached⟩, -⟩
    exact hnot hreached
  · exact fun hdeclares => hnot hdeclares.1

/-! ## The outline as a whole -/

/-- The lists of an outline hold what they are said to hold. -/
structure Outlined (role : NodeId → Role) (t : SyntaxTree) : Prop where
  nodup_classNodes : (classNodes role t).Nodup
  mem_classNodes : ∀ k, k ∈ classNodes role t ↔ Opens role t k
  inner_first : ∀ outer inner, Opens role t outer → Opens role t inner → Under t outer inner →
    inner ≠ outer → [inner, outer].Sublist (classNodes role t)
  nodup_operationNodes : ∀ c, (operationNodes role t c).Nodup
  mem_operationNodes : ∀ c j, j ∈ operationNodes role t c ↔ Declares role t c j
  innermost : ∀ c j, Reached role t c j → Innermost role t c j
  not_entered : ∀ c j, Reached role t c j → ¬ Entered role t j

theorem outlined (hroot : root < t.size) : Outlined role t where
  nodup_classNodes := (h.nodup_closing hroot).filter _
  mem_classNodes := by
    intro k
    rw [classNodes, mem_among, h.mem_closing hroot]
    refine and_iff_right_of_imp ?_
    rintro ⟨⟨c, hk⟩, -⟩
    exact hk.under_root h
  inner_first := by
    rintro outer inner ⟨⟨c, houter⟩, hrole⟩ hinner hunder hne
    have hpair := h.pair_sublist_closing (houter.under_root h) (houter.lt_size h) hunder hne
    have hkept : (among (Opens role t) [inner, outer]).Sublist (classNodes role t) :=
      hpair.filter _
    rwa [among_eq_self] at hkept
    intro k hk
    rcases List.mem_pair.mp hk with rfl | rfl
    · exact hinner
    · exact ⟨⟨c, houter⟩, hrole⟩
  nodup_operationNodes := fun c => (h.nodup_below hroot).filter _
  mem_operationNodes := by
    intro c j
    rw [operationNodes, mem_among, h.mem_below hroot]
    exact and_iff_right_of_imp fun hj => hj.1.under_root h
  innermost := fun c j hj => hj.innermost h
  not_entered := fun c j hj => hj.not_entered h

end Extract

end Refactor
