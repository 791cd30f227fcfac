import Refactor.Model.Class

/-!
# What makes members the same

Each notion of sameness compares some of the data and leaves out the rest. The data that is
compared is the identity of a value, and two values are the same exactly when their identities are
equal. So sameness is an equivalence, and what has the same identity has the same location.
-/

namespace Refactor

theorem equivBEq_of_identity {α β : Type} [BEq α] {identity : α → β}
    (h : ∀ a b : α, (a == b) = true ↔ identity a = identity b) : EquivBEq α where
  symm hab := (h _ _).mpr ((h _ _).mp hab).symm
  trans hab hbc := (h _ _).mpr (((h _ _).mp hab).trans ((h _ _).mp hbc))
  rfl := (h _ _).mpr rfl

theorem list_beq_iff_map_eq {α β : Type} [BEq α] {identity : α → β}
    (h : ∀ a b : α, (a == b) = true ↔ identity a = identity b) (as bs : List α) :
    (as == bs) = true ↔ as.map identity = bs.map identity := by
  induction as generalizing bs with
  | nil => cases bs <;> simp
  | cons a as ih =>
    cases bs with
    | nil => simp
    | cons b bs => simp [h, ih]

namespace TypeRef

mutual

/-- The parts of a type that sameness compares. -/
def identity : TypeRef → TypeRef
  | ⟨name, arguments, _, dimensions, _, _, variadic⟩ =>
    { name := name, arguments := identities arguments, dimensions := dimensions,
      isVarargs := variadic }

/-- The identities of several types. -/
def identities : List TypeRef → List TypeRef
  | [] => []
  | t :: ts => identity t :: identities ts

end

mutual

theorem same_iff : ∀ t u : TypeRef, same t u = true ↔ t.identity = u.identity
  | ⟨_, arguments, _, _, _, _, _⟩, ⟨_, arguments', _, _, _, _, _⟩ => by
    simp [same, identity, sameAll_iff arguments arguments', and_assoc]

theorem sameAll_iff : ∀ ts us : List TypeRef, sameAll ts us = true ↔ identities ts = identities us
  | [], [] => by simp [sameAll]
  | [], _ :: _ => by simp [sameAll, identities]
  | _ :: _, [] => by simp [sameAll, identities]
  | t :: ts, u :: us => by simp [sameAll, identities, same_iff t u, sameAll_iff ts us]

end

end TypeRef

/-- The parts of a parameter that sameness compares. -/
def Parameter.identity (p : Parameter) : String × TypeRef × Location :=
  (p.name, p.type.identity, p.location)

theorem Parameter.beq_iff (p q : Parameter) : (p == q) = true ↔ p.identity = q.identity := by
  show p.same q = true ↔ _
  have htype : (p.type == q.type) = true ↔ p.type.identity = q.type.identity :=
    TypeRef.same_iff p.type q.type
  simp [same, identity, htype, and_assoc]

namespace Attribute

theorem name_and_location_of_beq {a b : Attribute} (h : (a == b) = true) :
    a.name = b.name ∧ a.location = b.location := by
  change a.same b = true at h
  simp only [same, Bool.and_eq_true, beq_iff_eq] at h
  obtain ⟨⟨⟨⟨⟨⟨⟨⟨⟨⟨⟨⟨⟨hname, -⟩, hlocation⟩, -⟩, -⟩, -⟩, -⟩, -⟩, -⟩, -⟩, -⟩, -⟩, -⟩, -⟩ := h
  exact ⟨hname, hlocation⟩

theorem location_eq_of_beq {a b : Attribute} (h : (a == b) = true) : a.location = b.location :=
  (name_and_location_of_beq h).2

end Attribute

namespace Operation

/-- The parts of an operation that sameness compares. -/
def identity (o : Operation) :
    String × Option String × List (String × TypeRef × Location) × Location :=
  (o.name, o.className, o.parameters.map Parameter.identity, o.location)

theorem beq_iff (a b : Operation) : (a == b) = true ↔ a.identity = b.identity := by
  show a.same b = true ↔ _
  simp [same, identity, list_beq_iff_map_eq Parameter.beq_iff, and_assoc]

instance : EquivBEq Operation :=
  equivBEq_of_identity beq_iff

theorem location_eq_of_beq {a b : Operation} (h : (a == b) = true) : a.location = b.location :=
  congrArg (fun identity => identity.2.2.2) ((beq_iff a b).mp h)

end Operation

namespace Class

/-- The parts of a class that sameness compares. -/
def identity (c : Class) : String × String × Location :=
  (c.package, c.name, c.location)

theorem beq_iff (a b : Class) : (a == b) = true ↔ a.identity = b.identity := by
  show a.same b = true ↔ _
  simp [same, identity, and_assoc]

instance : EquivBEq Class :=
  equivBEq_of_identity beq_iff

theorem location_eq_of_beq {a b : Class} (h : (a == b) = true) : a.location = b.location :=
  congrArg (fun identity => identity.2.2) ((beq_iff a b).mp h)

end Class

end Refactor
