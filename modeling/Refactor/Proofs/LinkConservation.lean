import Refactor.Proofs.Attachment
import Refactor.Proofs.IndexedList
import Refactor.Proofs.Unchanged

/-!
# Linking loses nothing and doubles nothing

**Theorem (`link_conserves`).** Every operation outside of classes either stays, unchanged and in
order, or is a definition that goes to a place of its own: a declaration without a body, in the
first class of its class's name, of the same name and parameter types. That declaration takes the
body, and the parameters if it leaves one unnamed. No other member changes. As many operations have
bodies as before, and if members carry the names of their classes, the model has the same
signatures.

`Moves` follows the definitions one by one, with the places where they have gone. A declaration that
is filled has a body from then on, so it awaits nothing more, and the next definition that finds a
declaration finds one that was never touched.
-/

namespace Refactor

namespace CodeModel

/-! ## Where the definitions go -/

/-- What becomes of definitions that have had their turns: `lands i` is the place where the one at
position `i` has gone, if it did not stay. -/
structure Moves (m : CodeModel) (definitions : List Operation) (lands : Nat → Option (Nat × Nat))
    (m' : CodeModel) : Prop where
  /-- The others stay in their order. -/
  stayed : m'.operations =
    (definitions.zipIdx.filter fun entry => (lands entry.2).isNone).map Prod.fst
  /-- No two go to the same place. -/
  apart : ∀ i j place, lands i = some place → lands j = some place → i = j
  /-- A place where one has gone was a declaration for it, and is filled. -/
  filled : ∀ i place, lands i = some place →
    ∃ definition className body declared, definitions[i]? = some definition ∧
      definition.className = some className ∧ definition.body = some body ∧
      m.classes.findIdx? (fun c => c.name == className) = some place.1 ∧
      m.memberAt? place = some declared ∧ declared.body = none ∧
      declared.name = definition.name ∧
      List.Forall₂ (fun p q => (p.type == q.type) = true) declared.parameters
        definition.parameters ∧
      m'.memberAt? place = some
        { declared with
          body := some body
          parameters :=
            if declared.parameters.any fun p => p.name == "" then definition.parameters
            else declared.parameters }
  /-- Every other place is as it was. -/
  untouched : ∀ place, (∀ i, lands i ≠ some place) → m'.memberAt? place = m.memberAt? place
  /-- The classes have kept their places. -/
  names : m'.classes.map Class.name = m.classes.map Class.name

theorem moves_start (m : CodeModel) : Moves m [] (fun _ => none) { m with operations := [] } where
  stayed := rfl
  apart := by simp
  filled := by simp
  untouched := fun _ _ => rfl
  names := rfl

section

variable {m m' : CodeModel} {definitions : List Operation} {lands : Nat → Option (Nat × Nat)}

theorem Moves.lt_length (h : Moves m definitions lands m') {i : Nat} {place : Nat × Nat}
    (hi : lands i = some place) : i < definitions.length := by
  obtain ⟨definition, _, _, _, hdefinition, -⟩ := h.filled i place hi
  exact (List.getElem?_eq_some_iff.mp hdefinition).1

theorem Moves.lands_length (h : Moves m definitions lands m') :
    lands definitions.length = none := by
  cases hlands : lands definitions.length with
  | none => rfl
  | some place => exact absurd (h.lt_length hlands) (Nat.lt_irrefl _)

/-- A definition that finds no declaration stays behind the others. -/
theorem Moves.stay (h : Moves m definitions lands m') (definition : Operation) :
    Moves m (definitions ++ [definition]) lands
      { m' with operations := m'.operations ++ [definition] } where
  stayed := by simp [List.zipIdx_append, h.lands_length, h.stayed]
  apart := h.apart
  filled := by
    intro i place hi
    obtain ⟨found, className, body, declared, hfound, hrest⟩ := h.filled i place hi
    refine ⟨found, className, body, declared, ?_, hrest⟩
    rw [List.getElem?_append_left (h.lt_length hi), hfound]
  untouched := h.untouched
  names := h.names

/-- A declaration that still has no body was never filled. -/
theorem Moves.fresh (h : Moves m definitions lands m') {place : Nat × Nat} {declared : Operation}
    (hmember : m'.memberAt? place = some declared) (hempty : declared.body = none) (i : Nat) :
    lands i ≠ some place := by
  intro hi
  obtain ⟨_, _, _, _, -, -, -, -, -, -, -, -, hfilled⟩ := h.filled i place hi
  rw [hmember, Option.some.injEq] at hfilled
  rw [hfilled] at hempty
  cases hempty

theorem findIdx?_name (m : CodeModel) (className : String) :
    m.classes.findIdx? (fun c => c.name == className) =
      (m.classes.map Class.name).findIdx? (· == className) := by
  rw [List.findIdx?_map]
  rfl

/-- Places stay apart when a definition goes to one where none has gone before. -/
theorem apart_of_fresh {place : Nat × Nat} {n : Nat}
    (hapart : ∀ i j other, lands i = some other → lands j = some other → i = j)
    (hfresh : ∀ i, lands i ≠ some place) (i j : Nat) (other : Nat × Nat)
    (hi : (if i = n then some place else lands i) = some other)
    (hj : (if j = n then some place else lands j) = some other) : i = j := by
  by_cases hin : i = n
  · by_cases hjn : j = n
    · rw [hin, hjn]
    · rw [if_pos hin] at hi
      rw [if_neg hjn, ← hi] at hj
      exact absurd hj (hfresh j)
  · by_cases hjn : j = n
    · rw [if_pos hjn] at hj
      rw [if_neg hin, ← hj] at hi
      exact absurd hi (hfresh i)
    · rw [if_neg hin] at hi
      rw [if_neg hjn] at hj
      exact hapart i j other hi hj

/-- A definition that finds a declaration goes to a place where none has gone before. -/
theorem Moves.go (h : Moves m definitions lands m') {definition : Operation} {m'' : CodeModel}
    (hattached : Attached definition m' m'') :
    ∃ place, Moves m (definitions ++ [definition])
      (fun i => if i = definitions.length then some place else lands i) m'' := by
  obtain ⟨className, body, place, declared, hclassName, hbody, hfirst, hmember, hawaits, hother⟩ :=
    hattached.exists_place
  obtain ⟨hname, hempty, htypes⟩ := Operation.awaits_iff.mp hawaits
  have hfresh := h.fresh hmember hempty
  have hbefore : m.memberAt? place = some declared := by
    rw [← h.untouched place hfresh, hmember]
  have hclass : m.classes.findIdx? (fun c => c.name == className) = some place.1 := by
    rw [findIdx?_name, ← h.names, ← findIdx?_name, hfirst]
  refine ⟨place, ?_, apart_of_fresh h.apart hfresh, ?_, ?_, hattached.names.trans h.names⟩
  · have hearlier : ∀ entry ∈ definitions.zipIdx,
        (if entry.2 = definitions.length then some place else lands entry.2).isNone =
          (lands entry.2).isNone := by
      intro entry hentry
      have hlt : entry.2 < definitions.length := by
        simpa using List.snd_lt_of_mem_zipIdx hentry
      rw [if_neg (Nat.ne_of_lt hlt)]
    rw [hattached.operations, h.stayed, List.zipIdx_append, List.filter_append,
      List.filter_congr hearlier]
    simp
  · intro i other hi
    by_cases hlast : i = definitions.length
    · rw [if_pos hlast, Option.some.injEq] at hi
      subst hlast hi
      refine ⟨definition, className, body, declared, by simp, hclassName, hbody, hclass, hbefore,
        hempty, hname, htypes, ?_⟩
      rw [hother, if_pos rfl, Operation.withDefinition, hbody]
    · rw [if_neg hlast] at hi
      obtain ⟨found, owner, text, before, hfound, howner, htext, hfirst', hmember', hrest⟩ :=
        h.filled i other hi
      refine ⟨found, owner, text, before, ?_, howner, htext, hfirst', hmember', ?_⟩
      · rw [List.getElem?_append_left (h.lt_length hi), hfound]
      · have hne : other ≠ place := by
          rintro rfl
          exact hfresh i hi
        rw [hother, if_neg hne]
        exact hrest
  · intro other hnot
    have hne : other ≠ place := by
      rintro rfl
      exact hnot definitions.length (if_pos rfl)
    have hnone : ∀ i, lands i ≠ some other := by
      intro i hi
      have hlt := h.lt_length hi
      exact hnot i (by rw [if_neg (Nat.ne_of_lt hlt), hi])
    rw [hother, if_neg hne, h.untouched other hnone]

theorem exists_moves (m : CodeModel) (definitions : List Operation) :
    ∃ lands, Moves m definitions lands
      (definitions.foldl linkDefinition { m with operations := [] }) := by
  induction definitions using List.reverseRecOn with
  | nil => exact ⟨_, moves_start m⟩
  | append_singleton definitions definition ih =>
    obtain ⟨lands, h⟩ := ih
    rw [List.foldl_concat]
    rcases linkDefinition_cases (definitions.foldl linkDefinition { m with operations := [] })
      definition with hattached | ⟨-, hkept⟩
    · obtain ⟨place, hgone⟩ := h.go hattached
      exact ⟨_, hgone⟩
    · rw [hkept]
      exact ⟨lands, h.stay definition⟩

end

/-! ## Bodies -/

section

variable {m m' : CodeModel} {definition : Operation}

theorem Attached.countP_body (h : Attached definition m m') :
    definition.body.isSome = true ∧
      (m'.allOperations.countP fun o => o.body.isSome) =
        (m.allOperations.countP fun o => o.body.isSome) + 1 := by
  cases h with
  | fill _ hbody hclasses _ _ hoperations _ hawaits =>
    obtain ⟨-, hempty, -⟩ := Operation.awaits_iff.mp hawaits
    refine ⟨by rw [hbody]; rfl, ?_⟩
    simp only [allOperations, hclasses, hoperations, Operation.withDefinition, hbody, hempty,
      List.countP_append, List.countP_cons, List.flatMap_append, List.flatMap_cons,
      Option.isSome_some, Option.isSome_none, if_true, Bool.false_eq_true, if_false]
    omega

/-- A body is counted with its definition as long as that waits, and with its declaration then. -/
theorem countP_body_foldl (m : CodeModel) (definitions : List Operation) :
    ((definitions.foldl linkDefinition m).allOperations.countP fun o => o.body.isSome) =
      (m.allOperations.countP fun o => o.body.isSome) +
        definitions.countP fun o => o.body.isSome := by
  induction definitions generalizing m with
  | nil => rfl
  | cons definition definitions ih =>
    rw [List.foldl_cons, ih, List.countP_cons]
    rcases linkDefinition_cases m definition with hattached | ⟨-, hkept⟩
    · obtain ⟨hbody, hcount⟩ := hattached.countP_body
      rw [hcount, if_pos hbody]
      omega
    · rw [hkept]
      simp only [allOperations, List.countP_append, List.countP_singleton]
      omega

end

end CodeModel

/-! ## Signatures -/

/-- Every member carries the name of its class. -/
def Class.MembersNamed (c : Class) : Prop :=
  ∀ o ∈ c.operations, o.className = some c.name

theorem Class.MembersNamed.addOperation {c : Class} (h : c.MembersNamed) (o : Operation) :
    (c.addOperation o).MembersNamed := by
  intro member hmember
  change member.className = some c.name
  rcases LocationIndex.mem_of_mem_pushUnique hmember with hbefore | rfl
  · exact h member hbefore
  · rfl

namespace CodeModel

open Diff

section

variable {m m' : CodeModel} {definition : Operation}

/-- A declaration has the signature of the definition that it awaits, and keeps it. -/
theorem signatureKey_of_awaits (old : CodeModel) {declared : Operation}
    (h : declared.awaits definition = true) (hclass : declared.className = definition.className) :
    signatureKey old declared = signatureKey old definition ∧
      signatureKey old (declared.withDefinition definition) = signatureKey old definition := by
  obtain ⟨hname, -, htypes⟩ := Operation.awaits_iff.mp h
  refine ⟨signatureKey_eq_of_types old hname hclass htypes,
    signatureKey_eq_of_types old hname hclass ?_⟩
  unfold Operation.withDefinition
  dsimp only
  split
  · exact List.forall₂_same.mpr fun p _ => TypeRef.same_refl p.type
  · exact htypes

theorem Attached.membersNamed (h : Attached definition m m')
    (hnamed : ∀ c ∈ m.classes, c.MembersNamed) : ∀ c ∈ m'.classes, c.MembersNamed := by
  cases h with
  | @fill _ _ before after c earlier later declared _ _ hclasses _ _ hoperations =>
    rw [hclasses, List.forall_mem_append, List.forall_mem_cons] at hnamed
    obtain ⟨hbefore, hc, hafter⟩ := hnamed
    rw [Class.MembersNamed, hoperations, List.forall_mem_append, List.forall_mem_cons] at hc
    change ∀ other ∈ before ++ _ :: after, other.MembersNamed
    rw [List.forall_mem_append, List.forall_mem_cons]
    refine ⟨hbefore, ?_, hafter⟩
    change ∀ o ∈ earlier ++ _ :: later, o.className = some c.name
    rw [List.forall_mem_append, List.forall_mem_cons]
    exact ⟨hc.1, hc.2.1, hc.2.2⟩

/-- The signature of a definition that moves is still that of its declaration. -/
theorem Attached.mem_keys (h : Attached definition m m')
    (hnamed : ∀ c ∈ m.classes, c.MembersNamed) (old : CodeModel) (key : String) :
    key ∈ m'.allOperations.map (signatureKey old) ↔
      key ∈ m.allOperations.map (signatureKey old) ∨ key = signatureKey old definition := by
  cases h with
  | @fill _ _ before after c earlier later declared hclassName _ hclasses _ hname hoperations _
      hawaits =>
    have hdeclared : declared.className = definition.className := by
      rw [hclassName, ← hname]
      exact hnamed c (by simp [hclasses]) declared (by simp [hoperations])
    obtain ⟨hbefore, hafter⟩ := signatureKey_of_awaits old hawaits hdeclared
    simp only [allOperations, hclasses, hoperations, List.map_append, List.map_cons,
      List.flatMap_append, List.flatMap_cons, List.mem_append, List.mem_cons, hbefore, hafter]
    tauto

theorem mem_keys_foldl (hnamed : ∀ c ∈ m.classes, c.MembersNamed) (definitions : List Operation)
    (old : CodeModel) (key : String) :
    key ∈ (definitions.foldl linkDefinition m).allOperations.map (signatureKey old) ↔
      key ∈ m.allOperations.map (signatureKey old) ∨
        key ∈ definitions.map (signatureKey old) := by
  induction definitions generalizing m with
  | nil => simp
  | cons definition definitions ih =>
    rw [List.foldl_cons, List.map_cons, List.mem_cons]
    rcases linkDefinition_cases m definition with hattached | ⟨-, hkept⟩
    · rw [ih (hattached.membersNamed hnamed), hattached.mem_keys hnamed, or_assoc]
    · rw [hkept, ih (m := { m with operations := m.operations ++ [definition] }) hnamed]
      simp only [allOperations, List.map_append, List.map_cons, List.map_nil, List.mem_append,
        List.mem_singleton]
      tauto

end

/-- What became of the definitions can be seen after the values have been given, too. -/
theorem exists_moves_link (m : CodeModel) : ∃ lands, Moves m m.operations lands m.link := by
  obtain ⟨lands, h⟩ := exists_moves m m.operations
  have hmember := memberAt?_link m
  have hnames : m.link.classes.map Class.name = m.linkDefinitions.classes.map Class.name := by
    have houtline := congrArg (List.map fun outline => outline.1.2.1) (outline_link m).1
    rw [List.map_map, List.map_map] at houtline
    exact houtline
  refine ⟨lands, (outline_link m).2.trans h.stayed, h.apart, ?_, ?_, hnames.trans h.names⟩
  · intro i place hi
    rw [hmember]
    exact h.filled i place hi
  · intro place hnot
    rw [hmember]
    exact h.untouched place hnot

/-- **Linking loses no definition and doubles none.** -/
theorem link_conserves (m : CodeModel) :
    (m.link.operations.Sublist m.operations ∧ ∃ lands, Moves m m.operations lands m.link) ∧
    (m.link.allOperations.countP fun o => o.body.isSome) =
      (m.allOperations.countP fun o => o.body.isSome) ∧
    (∀ (c : Class) (o : Operation), c.MembersNamed → (c.addOperation o).MembersNamed) ∧
    ((∀ c ∈ m.classes, c.MembersNamed) → ∀ (old : CodeModel) (key : String),
      key ∈ m.link.allOperations.map (signatureKey old) ↔
        key ∈ m.allOperations.map (signatureKey old)) := by
  refine ⟨⟨(keeps_link m).2, exists_moves_link m⟩, ?_, fun _ o h => h.addOperation o, ?_⟩
  · rw [allOperations_link, linkDefinitions, countP_body_foldl]
    simp only [allOperations, List.countP_append, List.countP_nil]
    omega
  · intro hnamed old key
    rw [allOperations_link, linkDefinitions,
      mem_keys_foldl (m := { m with operations := [] }) hnamed]
    simp only [allOperations, List.map_append, List.mem_append, List.nil_append]
    exact or_comm

/-- Of two overloads, one leaves its parameter unnamed; a third definition has no declaration. -/
theorem link_conserves_overloads :
    let c : Class :=
      { package := "", name := "Box", location := (memberOf "Box" "put" "int" "" none).location,
        operations :=
          [memberOf "Box" "put" "int" "" none, memberOf "Box" "put" "double" "x" none] }
    let m : CodeModel :=
      { classes := [c]
        operations :=
          [memberOf "Box" "put" "double" "y" (some "hold(y);"),
            memberOf "Box" "take" "int" "n" (some "drop(n);"),
            memberOf "Box" "put" "int" "i" (some "keep(i);")] }
    (∀ c ∈ m.classes, c.MembersNamed) ∧
      m.link.operations = [memberOf "Box" "take" "int" "n" (some "drop(n);")] ∧
      m.link.memberAt? (0, 0) = some (memberOf "Box" "put" "int" "i" (some "keep(i);")) ∧
      m.link.memberAt? (0, 1) = some (memberOf "Box" "put" "double" "x" (some "hold(y);")) ∧
      ∀ (old : CodeModel) (key : String),
        key ∈ m.link.allOperations.map (signatureKey old) ↔
          key ∈ m.allOperations.map (signatureKey old) := by
  intro c m
  have hnamed : ∀ c ∈ m.classes, c.MembersNamed := by
    simp [m, c, Class.MembersNamed, memberOf]
  exact ⟨hnamed, rfl, rfl, rfl, (link_conserves m).2.2.2 hnamed⟩

end CodeModel

end Refactor
