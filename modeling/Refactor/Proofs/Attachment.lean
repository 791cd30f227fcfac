import Mathlib.Data.List.Forall2
import Refactor.Proofs.Linking

/-!
# Moving one definition

Linking goes through the definitions one by one. All that one step can do is said here once: it
either fills a declaration (`Attached`), or it finds none and keeps the definition
(`linkDefinition_cases`). A declaration is filled in the first class of the definition's class name,
and it is the first one there that awaits the definition.

Members of classes are addressed by places: the position of the class and the position in it.
-/

namespace Refactor

/-! ## The first element that satisfies a test -/

section

variable {α : Type} {p : α → Bool} {f : α → α} {items changed : List α}

/-- A change divides the list where it takes place. -/
theorem exists_split_of_modifyFirst? (h : modifyFirst? p f items = some changed) :
    ∃ before item after, items = before ++ item :: after ∧
      (∀ other ∈ before, p other = false) ∧ p item = true ∧
        changed = before ++ f item :: after := by
  induction items generalizing changed with
  | nil => cases h
  | cons item items ih =>
    rw [modifyFirst?] at h
    by_cases hp : p item = true
    · rw [if_pos hp] at h
      obtain rfl := Option.some.inj h
      exact ⟨[], item, items, rfl, by simp, hp, rfl⟩
    · rw [if_neg hp] at h
      obtain ⟨rest, hrest, rfl⟩ := Option.map_eq_some_iff.mp h
      obtain ⟨before, found, after, rfl, hbefore, hfound, rfl⟩ := ih hrest
      refine ⟨item :: before, found, after, rfl, ?_, hfound, rfl⟩
      intro other hother
      rcases List.mem_cons.mp hother with rfl | hother
      · simpa using hp
      · exact hbefore other hother

/-- The first element that satisfies the test is changed. -/
theorem modifyFirst?_append_cons {before after : List α} {item : α}
    (hbefore : ∀ other ∈ before, p other = false) (hitem : p item = true) :
    modifyFirst? p f (before ++ item :: after) = some (before ++ f item :: after) := by
  induction before with
  | nil => rw [List.nil_append, modifyFirst?, if_pos hitem, List.nil_append]
  | cons other before ih =>
    rw [List.forall_mem_cons] at hbefore
    rw [List.cons_append, modifyFirst?, if_neg (Bool.eq_false_iff.mp hbefore.1), ih hbefore.2]
    rfl

theorem modifyFirst?_eq_none_iff :
    modifyFirst? p f items = none ↔ ∀ item ∈ items, p item = false := by
  induction items with
  | nil => simp [modifyFirst?]
  | cons item items ih =>
    rw [modifyFirst?]
    by_cases hp : p item = true
    · simp [hp]
    · simp [hp, ih]

/-- Two lists that differ in one element. -/
theorem getElem?_append_cons (before after : List α) (item other : α) (i : Nat) :
    (before ++ other :: after)[i]? =
      if i = before.length then some other else (before ++ item :: after)[i]? := by
  by_cases hlt : i < before.length
  · rw [List.getElem?_append_left hlt, List.getElem?_append_left hlt, if_neg (by omega)]
  · rw [List.getElem?_append_right (by omega), List.getElem?_append_right (by omega)]
    by_cases heq : i = before.length
    · simp [heq]
    · obtain ⟨k, hk⟩ : ∃ k, i - before.length = k + 1 := ⟨i - before.length - 1, by omega⟩
      rw [if_neg heq, hk, List.getElem?_cons_succ, List.getElem?_cons_succ]

end

/-! ## Declarations that await a definition -/

theorem TypeRef.sameAll_iff_forall₂ (ts us : List TypeRef) :
    sameAll ts us = true ↔ List.Forall₂ (fun t u => (t == u) = true) ts us := by
  induction ts generalizing us with
  | nil => cases us <;> simp [sameAll]
  | cons t ts ih =>
    cases us with
    | nil => simp [sameAll]
    | cons u us =>
      rw [sameAll, Bool.and_eq_true, ih, List.forall₂_cons]
      exact Iff.rfl

namespace Operation

theorem sameParameterTypes_iff (a b : Operation) : a.sameParameterTypes b = true ↔
    List.Forall₂ (fun p q => (p.type == q.type) = true) a.parameters b.parameters := by
  rw [sameParameterTypes, TypeRef.sameAll_iff_forall₂, List.forall₂_map_left_iff,
    List.forall₂_map_right_iff]

/-- What it takes to await a definition. -/
theorem awaits_iff {declared definition : Operation} : declared.awaits definition = true ↔
    declared.name = definition.name ∧ declared.body = none ∧
      List.Forall₂ (fun p q => (p.type == q.type) = true) declared.parameters
        definition.parameters := by
  rw [awaits, Bool.and_eq_true, Bool.and_eq_true, beq_iff_eq, Option.isNone_iff_eq_none,
    sameParameterTypes_iff, and_assoc]

end Operation

/-- The identity of a class and its operations, apart from its attributes and marks. -/
def Class.outline (c : Class) : (String × String × Location) × List Operation :=
  (c.identity, c.operations)

namespace CodeModel

/-- The member of a class at a place. -/
def memberAt? (m : CodeModel) (place : Nat × Nat) : Option Operation :=
  m.classes[place.1]?.bind fun c => c.operations[place.2]?

/-- In the first class of the definition's class name, the first declaration that awaits the
definition is filled. -/
inductive Attached (definition : Operation) (m : CodeModel) : CodeModel → Prop
  | fill {className body : String} {before after : List Class} {c : Class}
      {earlier later : List Operation} {declared : Operation}
      (hclassName : definition.className = some className) (hbody : definition.body = some body)
      (hclasses : m.classes = before ++ c :: after)
      (hbefore : ∀ other ∈ before, other.name ≠ className) (hname : c.name = className)
      (hoperations : c.operations = earlier ++ declared :: later)
      (hearlier : ∀ other ∈ earlier, other.awaits definition = false)
      (hawaits : declared.awaits definition = true) :
      Attached definition m
        { m with
          classes := before ++
            { c with operations := earlier ++ declared.withDefinition definition :: later } ::
              after }

theorem class?_of_split {m : CodeModel} {name : String} {before after : List Class} {c : Class}
    (hclasses : m.classes = before ++ c :: after) (hbefore : ∀ other ∈ before, other.name ≠ name)
    (hname : c.name = name) : m.class? name = some c := by
  rw [class?, hclasses, List.find?_append, List.find?_eq_none.mpr (by simpa using hbefore),
    Option.none_or]
  exact List.find?_cons_of_pos (by simpa using hname)

theorem attached_of_attach? {m m' : CodeModel} {definition : Operation}
    (h : m.attach? definition = some m') : Attached definition m m' := by
  unfold attach? at h
  split at h
  · rename_i className body hclassName hbody
    obtain ⟨c, hc, h⟩ := Option.bind_eq_some_iff.mp h
    obtain ⟨changed, hchanged, h⟩ := Option.bind_eq_some_iff.mp h
    obtain ⟨classes, hclasses, rfl⟩ := Option.map_eq_some_iff.mp h
    obtain ⟨operations, hoperations, rfl⟩ := Option.map_eq_some_iff.mp hchanged
    obtain ⟨before, first, after, hsplit, hbefore, hfirst, rfl⟩ :=
      exists_split_of_modifyFirst? hclasses
    obtain ⟨earlier, declared, later, hmembers, hearlier, hawaits, rfl⟩ :=
      exists_split_of_modifyFirst? hoperations
    have hbefore : ∀ other ∈ before, other.name ≠ className := by simpa using hbefore
    have hfirst : first.name = className := by simpa using hfirst
    obtain rfl := Option.some.inj ((class?_of_split hsplit hbefore hfirst).symm.trans hc)
    exact .fill hclassName hbody hsplit hbefore hfirst hmembers hearlier hawaits
  · cases h

theorem Attached.attach?_eq {m m' : CodeModel} {definition : Operation}
    (h : Attached definition m m') : m.attach? definition = some m' := by
  cases h with
  | @fill className body before after c earlier later declared hclassName hbody hclasses hbefore
      hname hoperations hearlier hawaits =>
    unfold attach?
    rw [hclassName, hbody]
    dsimp only
    rw [modifyClass?, class?_of_split hclasses hbefore hname, Option.bind_some, hoperations,
      modifyFirst?_append_cons hearlier hawaits, Option.map_some, Option.bind_some, hclasses,
      modifyFirst?_append_cons (by simpa using hbefore) (by simpa using hname)]
    rfl

/-- Models whose classes agree in what determines their names agree in the first class of a name. -/
theorem map_class?_congr {β : Type} {g : Class → β} (nameOf : β → String)
    (hname : ∀ c, nameOf (g c) = c.name) {m m' : CodeModel}
    (h : m'.classes.map g = m.classes.map g) (name : String) :
    (m'.class? name).map g = (m.class? name).map g := by
  have hfind : ∀ model : CodeModel, (model.class? name).map g =
      (model.classes.map g).find? fun b => nameOf b == name := by
    intro model
    rw [List.find?_map, class?]
    congr 2
    funext c
    simp [hname]
  rw [hfind, hfind, h]

theorem modifyClass?_eq_none_iff {m : CodeModel} {name : String} {f : Class → Option Class} :
    m.modifyClass? name f = none ↔ ∀ c, m.class? name = some c → f c = none := by
  unfold modifyClass?
  cases hfound : m.class? name with
  | none => simp
  | some c =>
    -- The class that was found is also found when it is to be changed.
    have hchange : ∀ g, modifyFirst? (fun c => c.name == name) g m.classes ≠ none := by
      intro g hnone
      have hname := modifyFirst?_eq_none_iff.mp hnone c (List.mem_of_find?_eq_some hfound)
      have hsome := List.find?_some hfound
      rw [hname] at hsome
      cases hsome
    cases hf : f c with
    | none => simp [hf]
    | some changed => simp [hf, hchange]

/-- A definition finds no declaration exactly if none in the first class of its class name awaits
it. -/
theorem attach?_eq_none_iff {m : CodeModel} {definition : Operation} :
    m.attach? definition = none ↔
      ∀ className, definition.className = some className → definition.body.isSome = true →
        ∀ c, m.class? className = some c →
          ∀ declared ∈ c.operations, declared.awaits definition = false := by
  unfold attach?
  split
  · rename_i className body hclassName hbody
    rw [modifyClass?_eq_none_iff]
    simp only [Option.map_eq_none_iff, modifyFirst?_eq_none_iff, hclassName, hbody,
      Option.some.injEq, Option.isSome_some, true_imp_iff, forall_eq']
  · rename_i hnone
    refine ⟨fun _ className hclassName hbody => ?_, fun _ => rfl⟩
    obtain ⟨body, hbody⟩ := Option.isSome_iff_exists.mp hbody
    exact absurd hbody (hnone className body hclassName)

/-- **One step of linking**: a declaration is filled, or there is none and the definition stays. -/
theorem linkDefinition_cases (m : CodeModel) (definition : Operation) :
    Attached definition m (m.linkDefinition definition) ∨
      m.attach? definition = none ∧
        m.linkDefinition definition = { m with operations := m.operations ++ [definition] } := by
  unfold linkDefinition
  cases hattach : m.attach? definition with
  | none => exact .inr ⟨rfl, rfl⟩
  | some m' => exact .inl (attached_of_attach? hattach)

/-! ## What is filled and what is not -/

section

variable {m m' : CodeModel} {definition : Operation}

theorem Attached.operations (h : Attached definition m m') : m'.operations = m.operations := by
  cases h
  rfl

theorem Attached.names (h : Attached definition m m') :
    m'.classes.map Class.name = m.classes.map Class.name := by
  cases h with
  | fill _ _ hclasses => simp [hclasses]

/-- One place is filled, and every other one is as it was. -/
theorem Attached.exists_place (h : Attached definition m m') :
    ∃ className body place declared, definition.className = some className ∧
      definition.body = some body ∧
      m.classes.findIdx? (fun c => c.name == className) = some place.1 ∧
      m.memberAt? place = some declared ∧ declared.awaits definition = true ∧
      ∀ other, m'.memberAt? other =
        if other = place then some (declared.withDefinition definition)
        else m.memberAt? other := by
  cases h with
  | @fill className body before after c earlier later declared hclassName hbody hclasses hbefore
      hname hoperations _ hawaits =>
    refine ⟨className, body, (before.length, earlier.length), declared, hclassName, hbody, ?_, ?_,
      hawaits, ?_⟩
    · have hnone : before.findIdx? (fun c => c.name == className) = none := by
        simpa [List.findIdx?_eq_none_iff] using hbefore
      simp [hclasses, List.findIdx?_append, hnone, List.findIdx?_cons, hname]
    · simp [memberAt?, hclasses, hoperations]
    · rintro ⟨i, k⟩
      simp only [memberAt?, hclasses, Prod.mk.injEq]
      rw [getElem?_append_cons before after c _ i]
      by_cases hi : i = before.length
      · simp only [hi, if_true, true_and, Option.bind_some]
        rw [getElem?_append_cons earlier later declared _ k]
        simp [hoperations]
      · simp [hi]

end

/-! ## Values of attributes -/

theorem outline_linkInitializer (m : CodeModel) (i : StaticInitializer) :
    (m.linkInitializer i).classes.map Class.outline = m.classes.map Class.outline ∧
      (m.linkInitializer i).operations = m.operations := by
  unfold linkInitializer
  cases hvalue : m.giveValue? i with
  | none => exact ⟨rfl, rfl⟩
  | some m' =>
    have hkept : ∀ c changed : Class,
        (c.modifyAttribute? i.attributeName fun a => { a with initialValue := some i.value }) =
          some changed → changed.outline = c.outline := by
      intro c changed hchanged
      obtain ⟨attributes, -, rfl⟩ := Option.map_eq_some_iff.mp hchanged
      rfl
    obtain ⟨houtline, hrest⟩ := map_modifyClass? hkept hvalue
    have hoperations : m'.operations = m.operations := by rw [hrest]
    exact ⟨houtline, hoperations⟩

theorem outline_foldl_linkInitializer (m : CodeModel) (initializers : List StaticInitializer) :
    (initializers.foldl linkInitializer m).classes.map Class.outline =
        m.classes.map Class.outline ∧
      (initializers.foldl linkInitializer m).operations = m.operations := by
  induction initializers generalizing m with
  | nil => exact ⟨rfl, rfl⟩
  | cons i initializers ih =>
    obtain ⟨houtline, hoperations⟩ := outline_linkInitializer m i
    obtain ⟨hrest, hrestOperations⟩ := ih (m.linkInitializer i)
    exact ⟨hrest.trans houtline, hrestOperations.trans hoperations⟩

/-- The model once every definition has had its turn. -/
def linkDefinitions (m : CodeModel) : CodeModel :=
  m.operations.foldl linkDefinition { m with operations := [] }

/-- Values that are given afterwards touch no operation. -/
theorem outline_link (m : CodeModel) :
    m.link.classes.map Class.outline = m.linkDefinitions.classes.map Class.outline ∧
      m.link.operations = m.linkDefinitions.operations :=
  outline_foldl_linkInitializer { m.linkDefinitions with deferred := [] } m.linkDefinitions.deferred

theorem memberAt?_link (m : CodeModel) (place : Nat × Nat) :
    m.link.memberAt? place = m.linkDefinitions.memberAt? place := by
  have houtline : ∀ model : CodeModel, model.memberAt? place =
      ((model.classes.map Class.outline)[place.1]?).bind fun outline => outline.2[place.2]? := by
    intro model
    rw [memberAt?, List.getElem?_map, Option.bind_map]
    rfl
  rw [houtline, houtline, (outline_link m).1]

theorem allOperations_link (m : CodeModel) :
    m.link.allOperations = m.linkDefinitions.allOperations := by
  have houtline : ∀ model : CodeModel, model.allOperations =
      model.operations ++ (model.classes.map Class.outline).flatMap Prod.snd := by
    intro model
    rw [allOperations, List.flatMap_map]
    rfl
  rw [houtline, houtline, (outline_link m).1, (outline_link m).2]

/-! ## What every class keeps -/

section

variable {Q : Class → Prop} {m m' : CodeModel}

/-- A property of classes that survives filling one of their declarations. -/
theorem Attached.forall_classes {definition : Operation} (h : Attached definition m m')
    (hm : ∀ c ∈ m.classes, Q c)
    (hfill : ∀ (c : Class) (earlier later : List Operation) (declared : Operation), Q c →
      c.operations = earlier ++ declared :: later →
      Q { c with operations := earlier ++ declared.withDefinition definition :: later }) :
    ∀ c ∈ m'.classes, Q c := by
  cases h with
  | @fill className body before after c earlier later declared _ _ hclasses _ _ hoperations =>
    have hold : ∀ other ∈ before ++ c :: after, Q other := hclasses ▸ hm
    rw [List.forall_mem_append, List.forall_mem_cons] at hold ⊢
    exact ⟨hold.1, hfill c earlier later declared hold.2.1 hoperations, hold.2.2⟩

/-- A property of classes that survives giving one of their attributes a value. -/
theorem forall_classes_linkInitializer {i : StaticInitializer} (hm : ∀ c ∈ m.classes, Q c)
    (hgive : ∀ (c : Class) (earlier later : List Attribute) (a : Attribute), Q c →
      c.attributes = earlier ++ a :: later →
      Q { c with attributes := earlier ++ { a with initialValue := some i.value } :: later }) :
    ∀ c ∈ (m.linkInitializer i).classes, Q c := by
  unfold linkInitializer
  cases hvalue : m.giveValue? i with
  | none => exact hm
  | some m' =>
    obtain ⟨c, hc, hvalue⟩ := Option.bind_eq_some_iff.mp hvalue
    obtain ⟨changed, hchanged, hvalue⟩ := Option.bind_eq_some_iff.mp hvalue
    obtain ⟨classes, hclasses, rfl⟩ := Option.map_eq_some_iff.mp hvalue
    obtain ⟨attributes, hattributes, rfl⟩ := Option.map_eq_some_iff.mp hchanged
    obtain ⟨before, first, after, hsplit, -, -, rfl⟩ := exists_split_of_modifyFirst? hclasses
    obtain ⟨earlier, a, later, hmembers, -, -, rfl⟩ := exists_split_of_modifyFirst? hattributes
    have hfound : Q c := hm c (List.mem_of_find?_eq_some hc)
    rw [hsplit] at hm
    rw [List.forall_mem_append, List.forall_mem_cons] at hm
    rw [Option.getD_some, List.forall_mem_append, List.forall_mem_cons]
    exact ⟨hm.1, hgive c earlier later a hfound hmembers, hm.2.2⟩

/-- **What holds of every class before linking holds afterwards**, if it survives both kinds of
steps. -/
theorem forall_classes_link (hm : ∀ c ∈ m.classes, Q c)
    (hfill : ∀ definition ∈ m.operations,
      ∀ (c : Class) (earlier later : List Operation) (declared : Operation), Q c →
      c.operations = earlier ++ declared :: later →
      Q { c with operations := earlier ++ declared.withDefinition definition :: later })
    (hgive : ∀ (value : String) (c : Class) (earlier later : List Attribute) (a : Attribute), Q c →
      c.attributes = earlier ++ a :: later →
      Q { c with attributes := earlier ++ { a with initialValue := some value } :: later }) :
    ∀ c ∈ m.link.classes, Q c := by
  unfold link
  refine List.foldlRecOn (motive := fun m : CodeModel => ∀ c ∈ m.classes, Q c) _ _ ?_ ?_
  · refine List.foldlRecOn (motive := fun m : CodeModel => ∀ c ∈ m.classes, Q c) _ _ hm ?_
    intro model hmodel definition hdefinition
    rcases linkDefinition_cases model definition with hattached | ⟨-, hkept⟩
    · exact hattached.forall_classes hmodel (hfill definition hdefinition)
    · rw [hkept]
      exact hmodel
  · intro model hmodel i _
    exact forall_classes_linkInitializer hmodel (hgive i.value)

end

/-- What a model holds by file. -/
def byFile (m : CodeModel) :
    TextMap (List Comment) × TextMap (List Import) × TextMap String × TextMap String :=
  (m.comments, m.imports, m.packages, m.sources)

theorem Attached.byFile_eq {m m' : CodeModel} {definition : Operation}
    (h : Attached definition m m') : m'.byFile = m.byFile := by
  cases h
  rfl

theorem byFile_linkDefinition (m : CodeModel) (definition : Operation) :
    (m.linkDefinition definition).byFile = m.byFile := by
  rcases linkDefinition_cases m definition with hattached | ⟨-, hkept⟩
  · exact hattached.byFile_eq
  · rw [hkept]
    rfl

theorem byFile_linkInitializer (m : CodeModel) (i : StaticInitializer) :
    (m.linkInitializer i).byFile = m.byFile := by
  unfold linkInitializer
  cases hvalue : m.giveValue? i with
  | none => rfl
  | some m' =>
    obtain ⟨c, -, hvalue⟩ := Option.bind_eq_some_iff.mp hvalue
    obtain ⟨changed, -, hvalue⟩ := Option.bind_eq_some_iff.mp hvalue
    obtain ⟨classes, -, rfl⟩ := Option.map_eq_some_iff.mp hvalue
    rfl

theorem byFile_link (m : CodeModel) : m.link.byFile = m.byFile := by
  unfold link
  dsimp only
  rw [foldl_keeps byFile_linkInitializer]
  exact foldl_keeps byFile_linkDefinition _ _

/-- A member of a class, with one parameter. -/
def memberOf (className name type parameter : String) (body : Option String) : Operation :=
  let location : Location :=
    ⟨"m.hpp", ⟨1, 0⟩, ⟨1, 9⟩, .methodDeclaration, by decide, by decide⟩
  { name := name
    location := location
    className := some className
    parameters := [{ name := parameter, type := .named type, location := location }]
    body := body }

end CodeModel

end Refactor
