import Refactor.Proofs.Descendants
import Refactor.Proofs.Members
import Refactor.Proofs.PythonOutline

/-!
# Assignments that give attributes to a Python class

A class gets attributes from assignments to names directly in its body (`BodyAssigns`), and from
assignments to attributes of `self` in the bodies of its methods (`MethodAssigns`). What stands in a
function or class inside of a method is not taken for the method's own. Both are said here of the
tree alone, and `Precedes` says which of two nodes is read first.

A walk meets these assignments as a list (`offers`). It holds exactly those (`mem_offers`), each of
them once and in the order in which they are read (`assignments_offers`).
-/

namespace Refactor

namespace SyntaxTree

/-- The first node is read before the second one. -/
def Precedes (t : SyntaxTree) (i j : NodeId) : Prop :=
  [i, j].Sublist (t.preorder root)

/-- In a list without repetitions, two elements stand in one order only. -/
theorem not_sublist_swap {α : Type} {order : List α} (hnodup : order.Nodup) {a b : α}
    (hab : [a, b].Sublist order) : ¬ [b, a].Sublist order := by
  induction order with
  | nil => cases hab
  | cons first rest ih =>
    obtain ⟨hfirst, hrest⟩ := List.nodup_cons.mp hnodup
    intro hba
    rw [List.cons_sublist_cons'] at hab hba
    rcases hab with hab | ⟨rfl, hb⟩
    · rcases hba with hba | ⟨rfl, -⟩
      · exact ih hrest hab hba
      · exact hfirst (hab.subset (List.mem_cons_of_mem _ List.mem_cons_self))
    · rcases hba with hba | ⟨rfl, -⟩
      · exact hfirst (hba.subset (List.mem_cons_of_mem _ List.mem_cons_self))
      · exact hfirst (List.singleton_sublist.mp hb)

theorem WellFormed.precedes_asymm {t : SyntaxTree} (h : t.WellFormed) (hroot : root < t.size)
    {i j : NodeId} (hij : t.Precedes i j) : ¬ t.Precedes j i :=
  not_sublist_swap (h.preorder_eq_below hroot ▸ h.nodup_below hroot) hij

end SyntaxTree

namespace Extract.Python

open SyntaxTree (root Under)

/-! ## Assignments -/

/-- The node assigns to the attribute of this name of `self`. -/
def AssignsSelf (t : SyntaxTree) (name : String) (i : NodeId) : Prop :=
  t.kind i = "assignment" ∧ ∃ left, t.childInField? i "left" = some left ∧
    t.kind left = "attribute" ∧ t.fieldText? left "object" = some "self" ∧
    t.fieldText? left "attribute" = some name

/-- Neither a function nor a class below `start` has the node in it. -/
def InOwnScope (t : SyntaxTree) (start i : NodeId) : Prop :=
  ∀ b, Under t start b → b ≠ start → Under t b i →
    t.kind b ≠ "function_definition" ∧ t.kind b ≠ "class_definition"

/-- The node is a function that is reached directly in the class, and has a name. -/
def IsMethod (t : SyntaxTree) (k j : NodeId) : Prop :=
  Reached (role t) t (some k) j ∧ t.kind j = "function_definition" ∧
    (t.childInField? j "name").isSome = true

/-- The node is an assignment to this attribute of `self` in the body of a method of the class, and
not in a function or class inside of that body. -/
def MethodAssigns (t : SyntaxTree) (k : NodeId) (name : String) (i : NodeId) : Prop :=
  ∃ method body, IsMethod t k method ∧ t.childInField? method "body" = some body ∧
    Under t body i ∧ InOwnScope t body i ∧ AssignsSelf t name i

/-- The node is an assignment to this name directly in the body of the class. -/
def BodyAssigns (t : SyntaxTree) (k : NodeId) (name : String) (i : NodeId) : Prop :=
  ∃ statement left, Reached (role t) t (some k) statement ∧
    t.kind statement = "expression_statement" ∧ t.childOfKind? statement "assignment" = some i ∧
    t.childInField? i "left" = some left ∧ t.kind left = "identifier" ∧ t.text left = name

/-! ## Offers -/

/-- An assignment that offers an attribute: of the class, or of its instances. -/
structure Offer where
  assignment : NodeId
  name : String
  isStatic : Bool

/-- What a node offers if it assigns to an attribute of `self`. -/
def selfOffer? (t : SyntaxTree) (i : NodeId) : Option Offer :=
  (selfTarget? t i).map fun name => ⟨i, name, false⟩

/-- What the body of a method offers. -/
def selfOffers (t : SyntaxTree) (body : NodeId) : List Offer :=
  (t.descendantsWithin body "assignment" ["function_definition", "class_definition"]).filterMap
    (selfOffer? t)

/-- What a statement offers directly in the body of a class. -/
def bodyOffer? (t : SyntaxTree) (statement : NodeId) : Option Offer :=
  (t.childOfKind? statement "assignment").bind fun assignment =>
    (t.childInField? assignment "left").bind fun left =>
      if t.kind left = "identifier" then some ⟨assignment, t.text left, true⟩ else none

/-- What a node offers that is reached in a class. -/
def offersAt (t : SyntaxTree) (j : NodeId) : List Offer :=
  if t.kind j = "function_definition" ∧ (t.childInField? j "name").isSome = true then
    (t.childInField? j "body").toList.flatMap (selfOffers t)
  else if t.kind j = "expression_statement" then (bodyOffer? t j).toList
  else []

/-- All that a class is offered, in the order in which a walk meets it. -/
noncomputable def offers (t : SyntaxTree) (k : NodeId) : List Offer :=
  (memberNodes (role t) t (some k)).flatMap (offersAt t)

section

variable {t : SyntaxTree}

theorem offersAt_of_method {j name : NodeId} (hkind : t.kind j = "function_definition")
    (hname : t.childInField? j "name" = some name) :
    offersAt t j = (t.childInField? j "body").toList.flatMap (selfOffers t) :=
  if_pos ⟨hkind, by rw [hname]; rfl⟩

theorem offersAt_of_statement {j : NodeId} (hkind : t.kind j = "expression_statement") :
    offersAt t j = (bodyOffer? t j).toList := by
  rw [offersAt, if_neg (by simp [hkind]), if_pos hkind]

theorem offersAt_eq_nil {j : NodeId}
    (hfunction : t.kind j = "function_definition" → t.childInField? j "name" = none)
    (hstatement : t.kind j ≠ "expression_statement") : offersAt t j = [] := by
  rw [offersAt, if_neg, if_neg hstatement]
  rintro ⟨hkind, hname⟩
  rw [hfunction hkind] at hname
  cases hname

theorem selfTarget?_eq_some_iff {i : NodeId} {name : String} :
    selfTarget? t i = some name ↔ ∃ left, t.childInField? i "left" = some left ∧
      t.kind left = "attribute" ∧ t.fieldText? left "object" = some "self" ∧
      t.fieldText? left "attribute" = some name := by
  simp only [selfTarget?, Option.bind_eq_some_iff, Option.ite_none_right_eq_some, and_assoc]

theorem selfOffer?_eq_some_iff {i : NodeId} {o : Offer} :
    selfOffer? t i = some o ↔
      selfTarget? t i = some o.name ∧ o.assignment = i ∧ o.isStatic = false := by
  rw [selfOffer?, Option.map_eq_some_iff]
  constructor
  · rintro ⟨name, hname, rfl⟩
    exact ⟨hname, rfl, rfl⟩
  · rintro ⟨hname, rfl, hstatic⟩
    exact ⟨o.name, hname, by rw [← hstatic]⟩

theorem bodyOffer?_eq_some_iff {statement : NodeId} {o : Offer} :
    bodyOffer? t statement = some o ↔ o.isStatic = true ∧ ∃ left,
      t.childOfKind? statement "assignment" = some o.assignment ∧
      t.childInField? o.assignment "left" = some left ∧ t.kind left = "identifier" ∧
      t.text left = o.name := by
  simp only [bodyOffer?, Option.bind_eq_some_iff, Option.ite_none_right_eq_some, Option.some.injEq]
  constructor
  · rintro ⟨i, hi, left, hleft, hkind, rfl⟩
    exact ⟨rfl, left, hi, hleft, hkind, rfl⟩
  · rintro ⟨hstatic, left, hi, hleft, hkind, hname⟩
    exact ⟨o.assignment, hi, left, hleft, hkind, by rw [hname, ← hstatic]⟩

variable (h : t.WellFormed)

include h

theorem mem_descendantsWithin {body i : NodeId} (hbody : body < t.size) :
    i ∈ t.descendantsWithin body "assignment" ["function_definition", "class_definition"] ↔
      t.kind i = "assignment" ∧ Under t body i ∧ InOwnScope t body i := by
  have hscope : t.isHidden body ["function_definition", "class_definition"] i = false ↔
      InOwnScope t body i := by
    rw [Bool.eq_false_iff, Ne, h.isHidden_iff hbody]
    simp only [List.mem_pair, InOwnScope]
    grind
  rw [SyntaxTree.descendantsWithin, h.belowWithin_eq_filter hbody, h.preorder_eq_below hbody,
    List.mem_filter, List.mem_filter, h.mem_below hbody, Bool.not_eq_true', hscope, beq_iff_eq,
    and_comm]

theorem mem_selfOffers {body : NodeId} (hbody : body < t.size) {o : Offer} :
    o ∈ selfOffers t body ↔ o.isStatic = false ∧ Under t body o.assignment ∧
      InOwnScope t body o.assignment ∧ AssignsSelf t o.name o.assignment := by
  simp only [selfOffers, List.mem_filterMap, selfOffer?_eq_some_iff, selfTarget?_eq_some_iff,
    mem_descendantsWithin h hbody, AssignsSelf]
  constructor
  · rintro ⟨i, ⟨hkind, hunder, hscope⟩, htarget, rfl, hstatic⟩
    exact ⟨hstatic, hunder, hscope, hkind, htarget⟩
  · rintro ⟨hstatic, hunder, hscope, hkind, htarget⟩
    exact ⟨o.assignment, ⟨hkind, hunder, hscope⟩, htarget, rfl, hstatic⟩

/-- **A class is offered exactly its assignments.** -/
theorem mem_offers (hroot : root < t.size) {k : NodeId} {o : Offer} :
    o ∈ offers t k ↔ o.isStatic = true ∧ BodyAssigns t k o.name o.assignment ∨
      o.isStatic = false ∧ MethodAssigns t k o.name o.assignment := by
  have hbody : ∀ {j body : NodeId}, t.childInField? j "body" = some body → body < t.size :=
    fun hbody => (h.lt_of_mem_children (mem_children_of_childInField? hbody)).2
  simp only [offers, List.mem_flatMap, mem_memberNodes h hroot]
  constructor
  · rintro ⟨j, hj, ho⟩
    unfold offersAt at ho
    split at ho
    · rename_i hmethod
      obtain ⟨body, hfound, ho⟩ := List.mem_flatMap.mp ho
      rw [Option.mem_toList] at hfound
      obtain ⟨hstatic, hassigns⟩ := (mem_selfOffers h (hbody hfound)).mp ho
      exact .inr ⟨hstatic, j, body, ⟨hj, hmethod⟩, hfound, hassigns⟩
    · split at ho
      · rename_i hkind
        rw [Option.mem_toList] at ho
        obtain ⟨hstatic, left, hassigns⟩ := bodyOffer?_eq_some_iff.mp ho
        exact .inl ⟨hstatic, j, left, hj, hkind, hassigns⟩
      · cases ho
  · rintro (⟨hstatic, j, left, hj, hkind, hassigns⟩ |
      ⟨hstatic, j, body, ⟨hj, hkind, hname⟩, hfound, hassigns⟩)
    · refine ⟨j, hj, ?_⟩
      rw [offersAt_of_statement hkind, Option.mem_toList]
      exact bodyOffer?_eq_some_iff.mpr ⟨hstatic, left, hassigns⟩
    · refine ⟨j, hj, ?_⟩
      obtain ⟨name, hname⟩ := Option.isSome_iff_exists.mp hname
      rw [offersAt_of_method hkind hname, hfound, Option.toList_some, List.flatMap_singleton]
      exact (mem_selfOffers h (hbody hfound)).mpr ⟨hstatic, hassigns⟩

/-! ## Reading order -/

theorem assignments_selfOffers {body : NodeId} (hbody : body < t.size) :
    ((selfOffers t body).map Offer.assignment).Sublist (t.below body) := by
  have hsame : ∀ i, ∀ o ∈ selfOffer? t i, o.assignment = i := fun i o ho =>
    (selfOffer?_eq_some_iff.mp ho).2.1
  have hkept : ∀ nodes : List NodeId,
      ((nodes.filterMap (selfOffer? t)).map Offer.assignment).Sublist nodes := by
    intro nodes
    induction nodes with
    | nil => exact .slnil
    | cons i nodes ih =>
      cases ho : selfOffer? t i with
      | none =>
        rw [List.filterMap_cons_none ho]
        exact ih.cons i
      | some o =>
        rw [List.filterMap_cons_some ho, List.map_cons, hsame i o ho]
        exact ih.cons_cons i
  refine (hkept _).trans ?_
  rw [SyntaxTree.descendantsWithin, h.belowWithin_eq_filter hbody, h.preorder_eq_below hbody]
  exact List.filter_sublist.trans List.filter_sublist

/-- Only leaves offer something, and what they offer stands below them. -/
theorem assignments_offersAt {j : NodeId} (hj : j < t.size) :
    (offersAt t j).map Offer.assignment = [] ∨ (∃ name?, role t j = .leaf name?) ∧
      ((offersAt t j).map Offer.assignment).Sublist (t.below j) := by
  have hbelow : ∀ {i : NodeId}, i ∈ t.children j → i ∈ t.below j := fun hi =>
    (h.mem_below hj).mpr (h.under_of_mem_children hi)
  unfold offersAt
  split
  · rename_i hmethod
    refine .inr ⟨⟨_, role_of_function hmethod.1⟩, ?_⟩
    cases hbody : t.childInField? j "body" with
    | none => exact List.nil_sublist _
    | some body =>
      have hchild := mem_children_of_childInField? hbody
      rw [Option.toList_some, List.flatMap_singleton]
      exact (assignments_selfOffers h (h.lt_of_mem_children hchild).2).trans
        (h.below_sublist (h.under_of_mem_children hchild))
  · split
    · rename_i hkind
      refine .inr ⟨⟨fun _ => none, by rw [role, hkind]; rfl⟩, ?_⟩
      cases ho : bodyOffer? t j with
      | none => exact List.nil_sublist _
      | some o =>
        obtain ⟨-, left, hassignment, -⟩ := bodyOffer?_eq_some_iff.mp ho
        exact List.singleton_sublist.mpr (hbelow (List.mem_of_find?_eq_some hassignment))
    · exact .inl rfl

/-- **The assignments of a class are met in the order in which they are read.** -/
theorem assignments_offers (hroot : root < t.size) (k : NodeId) :
    ((offers t k).map Offer.assignment).Sublist (t.preorder root) := by
  rw [offers, List.map_flatMap, h.preorder_eq_below hroot]
  exact flatMap_members_sublist h (fun j hj => assignments_offersAt h (hj.lt_size h)) hroot

end

end Extract.Python

end Refactor
