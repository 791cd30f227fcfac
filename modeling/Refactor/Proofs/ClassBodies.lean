import Mathlib.Data.List.Flatten
import Refactor.Extract.Cpp
import Refactor.Proofs.Attachment
import Refactor.Proofs.IndexedList
import Refactor.Proofs.ReadingOrder

/-!
# Class bodies in C++

Which nodes belong to the body of a class, and which visibility the members there have, told from
the tree alone.

- `bodyNodes`: the nodes that are passed directly in a body, in their order. A class inside is
  passed, but what is in its body belongs to it. Outside of classes there is one list for the file.
- `visibilityAt`: the visibility of the last access specifier that is passed in the body before a
  node, or the one that the body starts with. Outside of classes everything is public.

No node is passed twice (`nodup_bodyNodes`), so a place in a body divides it in one way only
(`visibilityAt_of_split`).

A model shows the bodies if everything in it has the visibility of the place where it was recorded
(`ShowsModel`). Linking fills declarations, which keep their visibility (`ShowsModel.link`).
-/

namespace Refactor.Extract.Cpp

open SyntaxTree (root)

/-! ## Nodes -/

/-- Whether a node is a class or structure with a name and a body. -/
def opensBody (t : SyntaxTree) (i : NodeId) : Bool :=
  [Construct.classSpecifier, .structSpecifier].contains (Construct.ofKind (t.kind i)) &&
    (t.childInField? i "name").isSome && (t.childInField? i "body").isSome

/-- What stands in the body of a node. -/
def bodyChildren (t : SyntaxTree) (i : NodeId) : List NodeId :=
  (t.childInField? i "body").toList.flatMap t.children

/-- The nodes that a node leads on to, taken for a construct. Functions, access specifiers and
inclusions are passed as a whole; of a field only a class that is its type is looked into. -/
def insideAs (t : SyntaxTree) (i : NodeId) : Construct → List NodeId
  | .namespaceDefinition => bodyChildren t i
  | .classSpecifier | .structSpecifier => if opensBody t i then bodyChildren t i else []
  | .fieldDeclaration => (fieldClass? t i).toList
  | .functionDefinition | .accessSpecifier | .includeDirective => []
  | .translationUnit | .declaration | .templateDeclaration | .other => t.children i

/-- The nodes that a node leads on to. -/
def inside (t : SyntaxTree) (i : NodeId) : List NodeId :=
  insideAs t i (Construct.ofKind (t.kind i))

/-- The nodes that are passed from a node on, to a depth, without entering a class body. -/
def passedTo (t : SyntaxTree) : Nat → NodeId → List NodeId
  | 0, _ => []
  | depth + 1, i => i :: if opensBody t i then [] else (inside t i).flatMap (passedTo t depth)

/-- The nodes that are passed from a node on without entering a class body. -/
def passed (t : SyntaxTree) (i : NodeId) : List NodeId :=
  passedTo t t.size i

/-- The nodes that are passed directly in the body of a class, or outside of all classes. -/
def bodyNodes (t : SyntaxTree) : Option NodeId → List NodeId
  | some k => (inside t k).flatMap (passed t)
  | none => (t.children root).flatMap (passed t)

/-- The bodies that are entered: that of the file, and those of classes in bodies that are. -/
inductive Entered (t : SyntaxTree) : Option NodeId → Prop
  | file : Entered t none
  | body {c : Option NodeId} {k : NodeId} (hc : Entered t c) (hk : k ∈ bodyNodes t c)
      (hopens : opensBody t k = true) : Entered t (some k)

/-! ## Visibility -/

/-- The visibility that a node announces, if it is an access specifier that says one. -/
def announced? (t : SyntaxTree) (i : NodeId) : Option Visibility :=
  if Construct.ofKind (t.kind i) = .accessSpecifier then Visibility.ofSpecifier? (t.text i)
  else none

/-- The visibility that was announced last, or the one at the start. -/
def visibilityAfter (t : SyntaxTree) (start : Visibility) (nodes : List NodeId) : Visibility :=
  (nodes.filterMap (announced? t)).getLast?.getD start

/-- Members of a class are private and those of a structure public, unless announced otherwise. -/
def defaultVisibility (t : SyntaxTree) (k : NodeId) : Visibility :=
  if t.kind k = "class_specifier" then .privateAccess else .publicAccess

/-- The visibility of what stands at a node in a body. -/
def visibilityAt (t : SyntaxTree) (c : Option NodeId) (j : NodeId) : Visibility :=
  match c with
  | some k => visibilityAfter t (defaultVisibility t k) ((bodyNodes t c).takeWhile (· != j))
  | none => .publicAccess

theorem visibilityAfter_concat (t : SyntaxTree) (start : Visibility) (nodes : List NodeId)
    (i : NodeId) : visibilityAfter t start (nodes ++ [i]) =
      (announced? t i).getD (visibilityAfter t start nodes) := by
  unfold visibilityAfter
  rw [List.filterMap_append]
  cases hi : announced? t i with
  | none => simp [hi]
  | some visibility => simp [hi]

/-- Nodes that announce nothing leave the visibility as it is. -/
theorem visibilityAfter_silent {t : SyntaxTree} {nodes : List NodeId}
    (h : ∀ i ∈ nodes, announced? t i = none) (start : Visibility) (before : List NodeId) :
    visibilityAfter t start (before ++ nodes) = visibilityAfter t start before := by
  unfold visibilityAfter
  rw [List.filterMap_append, List.filterMap_eq_nil_iff.mpr h, List.append_nil]

section

variable {t : SyntaxTree}

/-- A class that is only announced leads nowhere. -/
theorem inside_of_not_opensBody {i : NodeId}
    (hconstruct : Construct.ofKind (t.kind i) = .classSpecifier ∨
      Construct.ofKind (t.kind i) = .structSpecifier)
    (hopens : opensBody t i = false) : inside t i = [] := by
  unfold inside
  rcases hconstruct with hconstruct | hconstruct <;>
    rw [hconstruct, insideAs, if_neg (by simp [hopens])]

theorem opensBody_of_construct {i : NodeId} {construct : Construct}
    (h : Construct.ofKind (t.kind i) = construct)
    (hne : construct ≠ .classSpecifier ∧ construct ≠ .structSpecifier) :
    opensBody t i = false := by
  unfold opensBody
  rw [h]
  cases construct with
  | classSpecifier => exact absurd rfl hne.1
  | structSpecifier => exact absurd rfl hne.2
  | _ => rfl

end

/-! ## Nothing is passed twice -/

section

variable {t : SyntaxTree}

theorem bodyChildren_cases (t : SyntaxTree) (i : NodeId) :
    bodyChildren t i = [] ∨ ∃ body ∈ t.children i, bodyChildren t i = t.children body := by
  unfold bodyChildren
  cases hbody : t.childInField? i "body" with
  | none => exact .inl rfl
  | some body =>
    refine .inr ⟨body, List.mem_of_find?_eq_some hbody, ?_⟩
    rw [Option.toList_some, List.flatMap_singleton]

/-- A node leads on to its children, to those of one child, to one child or nowhere. -/
theorem inside_cases (t : SyntaxTree) (i : NodeId) :
    inside t i = [] ∨ inside t i = t.children i ∨
      (∃ body ∈ t.children i, inside t i = t.children body) ∨
      ∃ type ∈ t.children i, inside t i = [type] := by
  have hbody := bodyChildren_cases t i
  unfold inside insideAs
  split
  · exact hbody.imp id fun hbody => .inr (.inl hbody)
  · split
    · exact hbody.imp id fun hbody => .inr (.inl hbody)
    · exact .inl rfl
  · split
    · exact hbody.imp id fun hbody => .inr (.inl hbody)
    · exact .inl rfl
  · cases htype : fieldClass? t i with
    | none => exact .inl rfl
    | some type =>
      have hmem : type ∈ t.children i :=
        List.mem_of_find?_eq_some (Option.filter_eq_some_iff.mp htype).1
      exact .inr (.inr (.inr ⟨type, hmem, rfl⟩))
  · exact .inl rfl
  · exact .inl rfl
  · exact .inl rfl
  all_goals exact .inr (.inl rfl)

variable (h : t.WellFormed)

include h

/-- The nodes inside stand behind the node. -/
theorem lt_of_mem_inside {i j : Nat} (hj : j ∈ inside t i) : i < j ∧ j < t.size := by
  rcases inside_cases t i with hinside | hinside | ⟨body, hbody, hinside⟩ | ⟨type, htype, hinside⟩
  · rw [hinside] at hj
    cases hj
  · rw [hinside] at hj
    exact h.lt_of_mem_children hj
  · rw [hinside] at hj
    have hlt := h.lt_of_mem_children hj
    exact ⟨Nat.lt_trans (h.lt_of_mem_children hbody).1 hlt.1, hlt.2⟩
  · rw [hinside] at hj
    obtain rfl := List.mem_singleton.mp hj
    exact h.lt_of_mem_children htype

/-- What is below the nodes inside is below the children, in the same order. -/
theorem flatMap_inside_sublist (i : NodeId) :
    ((inside t i).flatMap t.below).Sublist ((t.children i).flatMap t.below) := by
  have hchild : ∀ j ∈ t.children i, (t.below j).Sublist ((t.children i).flatMap t.below) :=
    fun j hj => List.sublist_flatten_of_mem (List.mem_map_of_mem hj)
  rcases inside_cases t i with hinside | hinside | ⟨body, hbody, hinside⟩ | ⟨type, htype, hinside⟩
  · rw [hinside]
    exact List.nil_sublist _
  · rw [hinside]
  · have hbelow := hchild body hbody
    rw [h.below_eq (h.lt_of_mem_children hbody).2] at hbelow
    rw [hinside]
    exact (List.sublist_cons_self _ _).trans hbelow
  · rw [hinside, List.flatMap_singleton]
    exact hchild type htype

/-- A depth that reaches the end of the table is deep enough. -/
theorem passedTo_succ {depth i : Nat} (hi : i < t.size) (hdepth : t.size ≤ depth + i) :
    passedTo t (depth + 1) i = passedTo t depth i := by
  induction depth generalizing i with
  | zero => omega
  | succ depth ih =>
    rw [passedTo, passedTo]
    congr 2
    refine List.flatMap_congr fun (j : Nat) hj => ?_
    have hbehind : i < j ∧ j < t.size := lt_of_mem_inside h hj
    exact ih hbehind.2 (by omega)

theorem passed_eq {i : Nat} (hi : i < t.size) :
    passed t i = i :: if opensBody t i then [] else (inside t i).flatMap (passed t) := by
  obtain ⟨depth, hdepth⟩ : ∃ depth, t.size = depth + 1 := ⟨t.size - 1, by omega⟩
  unfold passed
  rw [hdepth, passedTo]
  congr 2
  refine List.flatMap_congr fun (j : Nat) hj => ?_
  have hbehind : i < j ∧ j < t.size := lt_of_mem_inside h hj
  exact (passedTo_succ h hbehind.2 (by omega)).symm

/-- Of a class nothing but itself is passed, whatever is in its body. -/
theorem passed_of_class {i : NodeId} (hi : i < t.size)
    (hconstruct : Construct.ofKind (t.kind i) = .classSpecifier ∨
      Construct.ofKind (t.kind i) = .structSpecifier) : passed t i = [i] := by
  rw [passed_eq h hi]
  cases hopens : opensBody t i with
  | true => rw [if_pos rfl]
  | false =>
    rw [if_neg Bool.false_ne_true, inside_of_not_opensBody hconstruct hopens, List.flatMap_nil]

/-- A field announces no visibility, and neither does a class that is its type. -/
theorem announced?_of_mem_passed_field {i : NodeId} (hi : i < t.size)
    (hconstruct : Construct.ofKind (t.kind i) = .fieldDeclaration) :
    ∀ j ∈ passed t i, announced? t j = none := by
  intro j hj
  rw [passed_eq h hi, opensBody_of_construct hconstruct (by decide), if_neg Bool.false_ne_true,
    inside, hconstruct, insideAs] at hj
  rcases List.mem_cons.mp hj with rfl | hj
  · rw [announced?, hconstruct]
    rfl
  · obtain ⟨type, htype, hj⟩ := List.mem_flatMap.mp hj
    obtain ⟨hchild, hkind⟩ := Option.filter_eq_some_iff.mp (Option.mem_toList.mp htype)
    have hsize := (h.lt_of_mem_children (List.mem_of_find?_eq_some hchild)).2
    have hclass : Construct.ofKind (t.kind type) = .classSpecifier ∨
        Construct.ofKind (t.kind type) = .structSpecifier := by
      rcases (by simpa using hkind) with hkind | hkind
      · rw [hkind]
        exact .inl rfl
      · rw [hkind]
        exact .inr rfl
    rw [passed_of_class h hsize hclass] at hj
    obtain rfl := List.mem_singleton.mp hj
    rcases hclass with hclass | hclass <;> rw [announced?, hclass] <;> rfl

theorem passedTo_sublist_below (depth : Nat) {i : NodeId} (hi : i < t.size) :
    (passedTo t depth i).Sublist (t.below i) := by
  induction depth generalizing i with
  | zero => exact List.nil_sublist _
  | succ depth ih =>
    rw [passedTo, h.below_eq hi]
    refine List.Sublist.cons_cons i ?_
    split
    · exact List.nil_sublist _
    · refine List.Sublist.trans ?_ (flatMap_inside_sublist h i)
      exact List.Sublist.flatMap_right _ fun j hj => ih (lt_of_mem_inside h hj).2

theorem bodyNodes_sublist (c : Option NodeId) :
    (bodyNodes t c).Sublist ((t.children (c.getD root)).flatMap t.below) := by
  cases c with
  | none =>
    exact List.Sublist.flatMap_right _ fun j hj =>
      passedTo_sublist_below h t.size (h.lt_of_mem_children hj).2
  | some k =>
    refine List.Sublist.trans ?_ (flatMap_inside_sublist h k)
    exact List.Sublist.flatMap_right _ fun j hj =>
      passedTo_sublist_below h t.size (lt_of_mem_inside h hj).2

/-- **No node is passed twice in a body.** -/
theorem nodup_bodyNodes (c : Option NodeId) : (bodyNodes t c).Nodup := by
  refine (bodyNodes_sublist h c).nodup ?_
  by_cases hsize : c.getD root < t.size
  · have hbelow := h.nodup_below hsize
    rw [h.below_eq hsize] at hbelow
    exact (List.nodup_cons.mp hbelow).2
  · have hnone : t.children (c.getD root) = [] := by
      rw [SyntaxTree.children, (t.node?_eq_none).mpr (Nat.not_lt.mp hsize)]
      rfl
    rw [hnone]
    exact List.nodup_nil

/-- A place in a body divides it into what was passed before and what comes after. -/
theorem visibilityAt_of_split {k j : NodeId} {before after : List NodeId}
    (hsplit : bodyNodes t (some k) = before ++ j :: after) :
    visibilityAt t (some k) j = visibilityAfter t (defaultVisibility t k) before := by
  have hnodup := nodup_bodyNodes h (some k)
  rw [hsplit] at hnodup
  have hbefore : ∀ i ∈ before, (i != j) = true := by
    intro i hi
    rw [bne_iff_ne]
    rintro rfl
    exact List.disjoint_of_nodup_append hnodup hi List.mem_cons_self
  rw [visibilityAt, hsplit, List.takeWhile_append_of_pos hbefore,
    List.takeWhile_cons_of_neg (by simp), List.append_nil]

end

/-! ## Recorded at a node -/

/-- The function declarators that a node declares operations with. -/
def functionsAt (t : SyntaxTree) (j : NodeId) : List NodeId :=
  let declarators := t.childrenInField j "declarator"
  let functionIn (declarator : NodeId) := t.firstDescendant? declarator "function_declarator"
  match Construct.ofKind (t.kind j) with
  | .functionDefinition => ((t.childInField? j "declarator").bind functionIn).toList
  | .declaration =>
    (declarators.filter fun declarator => t.kind declarator != "init_declarator").filterMap
      functionIn
  | .fieldDeclaration => declarators.filterMap functionIn
  | _ => []

/-- The name of the operation that a function declarator declares. -/
def functionName? (t : SyntaxTree) (function : NodeId) : Option String :=
  (t.childInField? function "declarator").map fun name => (splitQualified (t.text name)).2

/-- The name of the field that a declarator declares. -/
def fieldName? (t : SyntaxTree) (declarator : NodeId) : Option String :=
  (t.firstDescendant? declarator "field_identifier" <|>
    t.firstDescendant? declarator "identifier").map t.text

/-- The operation is declared at a node of the body, and has the visibility of that place. -/
def ShowsOperation (f : File) (c : Option NodeId) (o : Operation) : Prop :=
  ∃ j ∈ bodyNodes f.tree c, f.locate j .methodDeclaration = .ok o.location ∧
    (∃ function ∈ functionsAt f.tree j, functionName? f.tree function = some o.name) ∧
    o.visibility = visibilityAt f.tree c j

/-- The attribute is declared at a node of the body, and has the visibility of that place. -/
def ShowsAttribute (f : File) (c : Option NodeId) (a : Attribute) : Prop :=
  ∃ j ∈ bodyNodes f.tree c, f.locate j .fieldDeclaration = .ok a.location ∧
    (∃ declarator ∈ f.tree.childrenInField j "declarator",
      fieldName? f.tree declarator = some a.name) ∧
    a.visibility = visibilityAt f.tree c j

/-- The class is opened at a node of some body, and has the visibility of that place; its members
have those of their places in its own body. -/
structure ShowsClass (f : File) (k : NodeId) (c : Class) : Prop where
  opens : opensBody f.tree k = true
  location : f.locate k .classDeclaration = .ok c.location
  name : f.tree.fieldText? k "name" = some c.name
  visibility : ∃ outer, Entered f.tree outer ∧ k ∈ bodyNodes f.tree outer ∧
    c.isInner = outer.isSome ∧ c.visibility = visibilityAt f.tree outer k
  operations : ∀ o ∈ c.operations, ShowsOperation f (some k) o
  attributes : ∀ a ∈ c.attributes, ShowsAttribute f (some k) a

/-- Everything in the model has the visibility of its place. -/
structure ShowsModel (f : File) (m : CodeModel) : Prop where
  classes : ∀ c ∈ m.classes, ∃ k, ShowsClass f k c
  operations : ∀ o ∈ m.operations, ShowsOperation f none o

/-! ## Additions and linking -/

section

variable {f : File} {k : NodeId} {c : Class} {m : CodeModel}

theorem ShowsClass.addOperation (h : ShowsClass f k c) {o : Operation}
    (ho : ShowsOperation f (some k) o) : ShowsClass f k (c.addOperation o) :=
  { h with operations := LocationIndex.forall_mem_pushUnique h.operations ho }

theorem ShowsClass.addAttribute (h : ShowsClass f k c) {a : Attribute}
    (ha : ShowsAttribute f (some k) a) : ShowsClass f k (c.addAttribute a) :=
  { h with attributes := LocationIndex.forall_mem_pushUnique h.attributes ha }

theorem ShowsClass.addSuperclasses (h : ShowsClass f k c) (names : List String) :
    ShowsClass f k (names.foldl Class.addSuperclass c) :=
  List.foldlRecOn (motive := ShowsClass f k) _ _ h fun _ hc _ _ => { hc with }

theorem ShowsModel.addClass (h : ShowsModel f m) (hc : ShowsClass f k c) :
    ShowsModel f (m.addClass c) :=
  { h with classes := LocationIndex.forall_mem_pushUnique h.classes ⟨k, hc⟩ }

theorem ShowsModel.addOperation (h : ShowsModel f m) {o : Operation}
    (ho : ShowsOperation f none o) : ShowsModel f (m.addOperation o) :=
  { h with operations := LocationIndex.forall_mem_pushUnique h.operations ho }

theorem ShowsClass.giveValue (h : ShowsClass f k c) {a : Attribute} {earlier later : List Attribute}
    (hattributes : c.attributes = earlier ++ a :: later) (value : String) :
    ShowsClass f k
      { c with attributes := earlier ++ { a with initialValue := some value } :: later } := by
  have hold := h.attributes
  rw [hattributes, List.forall_mem_append, List.forall_mem_cons] at hold
  refine { h with attributes := ?_ }
  rw [List.forall_mem_append, List.forall_mem_cons]
  exact hold

/-- A declaration keeps its name, its place and its visibility when it is filled. -/
theorem ShowsClass.fill (h : ShowsClass f k c) {declared : Operation}
    {earlier later : List Operation} (hoperations : c.operations = earlier ++ declared :: later)
    (definition : Operation) :
    ShowsClass f k
      { c with operations := earlier ++ declared.withDefinition definition :: later } := by
  have hold := h.operations
  rw [hoperations, List.forall_mem_append, List.forall_mem_cons] at hold
  refine { h with operations := ?_ }
  rw [List.forall_mem_append, List.forall_mem_cons]
  exact hold

theorem ShowsModel.linkInitializer (h : ShowsModel f m) (i : StaticInitializer) :
    ShowsModel f (m.linkInitializer i) where
  classes := CodeModel.forall_classes_linkInitializer h.classes fun _ _ _ _ hc hattributes =>
    hc.imp fun _ hc => hc.giveValue hattributes i.value
  operations := by
    rw [(CodeModel.keeps_linkInitializer m i).2]
    exact h.operations

theorem ShowsModel.link (h : ShowsModel f m) : ShowsModel f m.link where
  classes := by
    refine CodeModel.forall_classes_link h.classes ?_ ?_
    · exact fun definition _ _ _ _ _ hc hoperations =>
        hc.imp fun _ hc => hc.fill hoperations definition
    · exact fun value _ _ _ _ hc hattributes =>
        hc.imp fun _ hc => hc.giveValue hattributes value
  operations := fun o ho => h.operations o ((CodeModel.keeps_link m).2.subset ho)

end

end Refactor.Extract.Cpp
