import Refactor.Proofs.Attachment

/-!
# What linking leaves to link

**Theorem (`link_completes_first`).** After linking, no definition waits that the first class of its
class name still declares without a body, and no value waits for an attribute that the first class
of its class name has. A model is left as it is just if it has this already.

More cannot be said, because only the first class of a name is ever looked at. A class behind
another one of its name is left as it was, and what waits for it waits for ever
(`second_class_waits`). Where no two classes share a name, everything is linked.

A definition that found no declaration at its turn would find none later either: declarations lose
nothing but their want of a body. In the same way attributes keep their names when they are given
values.
-/

namespace Refactor

namespace CodeModel

/-- Nothing that waits in the model is meant for this class: no definition that it declares
without a body, and no value for one of its attributes. -/
structure Settled (m : CodeModel) (c : Class) : Prop where
  definitions : ∀ o ∈ m.operations, o.className = some c.name → o.body.isSome = true →
    ∀ declared ∈ c.operations, ¬ (declared.name = o.name ∧ declared.body = none ∧
      List.Forall₂ (fun p q => (p.type == q.type) = true) declared.parameters o.parameters)
  values : ∀ i ∈ m.deferred, i.className = c.name → ∀ a ∈ c.attributes, a.name ≠ i.attributeName

section

variable {m m' : CodeModel}

/-! ## Definitions that stay -/

/-- A member of a class after a step was there before, or is the declaration that was filled. -/
theorem Attached.mem_operations {definition : Operation} (h : Attached definition m m')
    {name : String} {c' : Class} (hc' : m'.class? name = some c') :
    ∃ c, m.class? name = some c ∧
      ∀ declared ∈ c'.operations, declared ∈ c.operations ∨ declared.body.isSome = true := by
  cases h with
  | @fill className body before after c earlier later declared _ hbody hclasses _ _ hoperations =>
    rw [class?, List.find?_append] at hc'
    rw [class?, hclasses, List.find?_append]
    cases hfound : before.find? fun other => other.name == name with
    | some first =>
      rw [hfound] at hc'
      obtain rfl := Option.some.inj hc'
      exact ⟨first, rfl, fun _ hmem => .inl hmem⟩
    | none =>
      rw [hfound, Option.none_or] at hc'
      rw [Option.none_or]
      by_cases hname : (c.name == name) = true
      · simp only [List.find?_cons, hname] at hc' ⊢
        obtain rfl := Option.some.inj hc'
        refine ⟨c, rfl, ?_⟩
        intro other hother
        rcases List.mem_append.mp hother with hearlier | hlater
        · exact .inl (by simp [hoperations, hearlier])
        · rcases List.mem_cons.mp hlater with rfl | hlater
          · exact .inr (by simp [Operation.withDefinition, hbody])
          · exact .inl (by simp [hoperations, hlater])
      · simp only [List.find?_cons, hname] at hc' ⊢
        exact ⟨c', hc', fun _ hmem => .inl hmem⟩

/-- A definition without a declaration gets none when another one is moved. -/
theorem Attached.attach?_eq_none {definition : Operation} (h : Attached definition m m')
    {o : Operation} (ho : m.attach? o = none) : m'.attach? o = none := by
  rw [attach?_eq_none_iff] at ho ⊢
  intro className hclassName hbody c' hc' declared hdeclared
  obtain ⟨c, hc, hmem⟩ := h.mem_operations hc'
  rcases hmem declared hdeclared with hbefore | hfilled
  · exact ho className hclassName hbody c hc declared hbefore
  · refine Bool.eq_false_iff.mpr fun hawaits => ?_
    rw [(Operation.awaits_iff.mp hawaits).2.1] at hfilled
    cases hfilled

theorem attach?_eq_none_of_outline (h : m'.classes.map Class.outline = m.classes.map Class.outline)
    {o : Operation} (ho : m.attach? o = none) : m'.attach? o = none := by
  rw [attach?_eq_none_iff] at ho ⊢
  intro className hclassName hbody c' hc'
  have hsame := map_class?_congr (fun outline => outline.1.2.1) (fun _ => rfl) h className
  rw [hc', Option.map_some] at hsame
  obtain ⟨c, hc, houtline⟩ := Option.map_eq_some_iff.mp hsame.symm
  have hoperations : c.operations = c'.operations := congrArg Prod.snd houtline
  rw [← hoperations]
  exact ho className hclassName hbody c hc

/-- No definition finds a declaration because another one has had its turn. -/
theorem attach?_linkDefinition_eq_none {o : Operation} (ho : m.attach? o = none)
    (definition : Operation) : (m.linkDefinition definition).attach? o = none := by
  rcases linkDefinition_cases m definition with hattached | ⟨-, hkept⟩
  · exact hattached.attach?_eq_none ho
  · rw [hkept]
    exact attach?_eq_none_of_outline (m := m) (by rfl) ho

/-- Definitions that have stayed find no declaration later. -/
theorem attach?_eq_none_foldl (h : ∀ o ∈ m.operations, m.attach? o = none)
    (definitions : List Operation) :
    ∀ o ∈ (definitions.foldl linkDefinition m).operations,
      (definitions.foldl linkDefinition m).attach? o = none := by
  induction definitions generalizing m with
  | nil => exact h
  | cons definition definitions ih =>
    rw [List.foldl_cons]
    apply ih
    intro o ho
    apply attach?_linkDefinition_eq_none
    rcases linkDefinition_cases m definition with hattached | ⟨hnone, hkept⟩
    · rw [hattached.operations] at ho
      exact h o ho
    · rw [hkept] at ho
      rcases List.mem_append.mp ho with hbefore | hlast
      · exact h o hbefore
      · rw [List.mem_singleton.mp hlast]
        exact hnone

theorem attach?_link (m : CodeModel) : ∀ o ∈ m.link.operations, m.link.attach? o = none := by
  intro o ho
  obtain ⟨houtline, hoperations⟩ := outline_link m
  rw [hoperations] at ho
  have hstart : ∀ o ∈ ({ m with operations := [] } : CodeModel).operations,
      ({ m with operations := [] } : CodeModel).attach? o = none := by simp
  exact attach?_eq_none_of_outline houtline (attach?_eq_none_foldl hstart m.operations o ho)

end

end CodeModel

/-! ## Values that stay -/

/-- The name of a class and the names of its attributes. -/
def Class.attributeNames (c : Class) : String × List String :=
  (c.name, c.attributes.map Attribute.name)

namespace CodeModel

section

variable {m m' : CodeModel} {i : StaticInitializer}

theorem giveValue?_eq_none_iff : m.giveValue? i = none ↔
    ∀ c, m.class? i.className = some c → ∀ a ∈ c.attributes, a.name ≠ i.attributeName := by
  unfold giveValue?
  rw [modifyClass?_eq_none_iff]
  simp only [Class.modifyAttribute?, Option.map_eq_none_iff, modifyFirst?_eq_none_iff,
    beq_eq_false_iff_ne]

theorem attributeNames_giveValue? (h : m.giveValue? i = some m') :
    m'.classes.map Class.attributeNames = m.classes.map Class.attributeNames ∧
      m' = { m with classes := m'.classes } := by
  refine map_modifyClass? (fun c changed hchanged => ?_) h
  obtain ⟨attributes, hattributes, rfl⟩ := Option.map_eq_some_iff.mp hchanged
  have hnames := map_modifyFirst? (g := Attribute.name) hattributes fun _ _ => rfl
  simp only [Class.attributeNames, hnames]

theorem giveValue?_eq_none_of_names
    (h : m'.classes.map Class.attributeNames = m.classes.map Class.attributeNames)
    (hi : m.giveValue? i = none) : m'.giveValue? i = none := by
  rw [giveValue?_eq_none_iff] at hi ⊢
  intro c' hc' a ha
  have hsame := map_class?_congr Prod.fst (fun _ => rfl) h i.className
  rw [hc', Option.map_some] at hsame
  obtain ⟨c, hc, hnames⟩ := Option.map_eq_some_iff.mp hsame.symm
  have hattributes : c.attributes.map Attribute.name = c'.attributes.map Attribute.name :=
    congrArg Prod.snd hnames
  obtain ⟨other, hother, hname⟩ : ∃ other ∈ c.attributes, other.name = a.name := by
    rw [← List.mem_map, hattributes]
    exact List.mem_map_of_mem ha
  rw [← hname]
  exact hi c hc other hother

/-- No value finds an attribute because another one has had its turn. -/
theorem giveValue?_linkInitializer_eq_none (hi : m.giveValue? i = none)
    (given : StaticInitializer) : (m.linkInitializer given).giveValue? i = none := by
  unfold linkInitializer
  cases hvalue : m.giveValue? given with
  | some m' => exact giveValue?_eq_none_of_names (attributeNames_giveValue? hvalue).1 hi
  | none => exact giveValue?_eq_none_of_names (m := m) (by rfl) hi

/-- Values that have stayed find no attribute later. -/
theorem giveValue?_eq_none_foldl (h : ∀ i ∈ m.deferred, m.giveValue? i = none)
    (initializers : List StaticInitializer) :
    ∀ i ∈ (initializers.foldl linkInitializer m).deferred,
      (initializers.foldl linkInitializer m).giveValue? i = none := by
  induction initializers generalizing m with
  | nil => exact h
  | cons given initializers ih =>
    rw [List.foldl_cons]
    apply ih
    intro i hi
    apply giveValue?_linkInitializer_eq_none
    unfold linkInitializer at hi
    cases hvalue : m.giveValue? given with
    | some m' =>
      rw [hvalue, Option.getD_some, (attributeNames_giveValue? hvalue).2] at hi
      exact h i hi
    | none =>
      rw [hvalue, Option.getD_none] at hi
      rcases List.mem_append.mp hi with hbefore | hlast
      · exact h i hbefore
      · rw [List.mem_singleton.mp hlast]
        exact hvalue

theorem giveValue?_link (m : CodeModel) : ∀ i ∈ m.link.deferred, m.link.giveValue? i = none :=
  giveValue?_eq_none_foldl (m := { m.linkDefinitions with deferred := [] }) (by simp)
    m.linkDefinitions.deferred

/-! ## Linking again -/

theorem foldl_linkDefinition_of_none {definitions : List Operation}
    (h : ∀ o ∈ definitions, m.attach? o = none) :
    definitions.foldl linkDefinition m = { m with operations := m.operations ++ definitions } := by
  induction definitions generalizing m with
  | nil => simp
  | cons definition definitions ih =>
    rw [List.forall_mem_cons] at h
    obtain ⟨hfirst, hrest⟩ := h
    have hkept : m.linkDefinition definition =
        { m with operations := m.operations ++ [definition] } := by
      rw [linkDefinition, hfirst, Option.getD_none]
    rw [List.foldl_cons, hkept, ih]
    · simp
    · intro o ho
      exact attach?_eq_none_of_outline (m := m) (by rfl) (hrest o ho)

theorem foldl_linkInitializer_of_none {initializers : List StaticInitializer}
    (h : ∀ i ∈ initializers, m.giveValue? i = none) :
    initializers.foldl linkInitializer m =
      { m with deferred := m.deferred ++ initializers } := by
  induction initializers generalizing m with
  | nil => simp
  | cons i initializers ih =>
    rw [List.forall_mem_cons] at h
    obtain ⟨hfirst, hrest⟩ := h
    have hkept : m.linkInitializer i = { m with deferred := m.deferred ++ [i] } := by
      rw [linkInitializer, hfirst, Option.getD_none, defer]
    rw [List.foldl_cons, hkept, ih]
    · simp
    · intro other hother
      exact giveValue?_eq_none_of_names (m := m) (by rfl) (hrest other hother)

theorem link_of_none (hoperations : ∀ o ∈ m.operations, m.attach? o = none)
    (hdeferred : ∀ i ∈ m.deferred, m.giveValue? i = none) : m.link = m := by
  have hdefinitions : m.operations.foldl linkDefinition { m with operations := [] } = m := by
    rw [foldl_linkDefinition_of_none]
    · simp
    · intro o ho
      exact attach?_eq_none_of_outline (m := m) (by rfl) (hoperations o ho)
  unfold link
  dsimp only
  rw [hdefinitions, foldl_linkInitializer_of_none]
  · simp
  · intro i hi
    exact giveValue?_eq_none_of_names (m := m) (by rfl) (hdeferred i hi)

/-! ## Classes behind others of their names -/

/-- The names of the classes stay, and so does every class behind another one of its name. -/
structure Spares (m m' : CodeModel) : Prop where
  names : m'.classes.map Class.name = m.classes.map Class.name
  behind : ∀ (k : Nat) (c : Class), m.classes[k]? = some c →
    (∃ j < k, (m.classes.map Class.name)[j]? = some c.name) → m'.classes[k]? = some c

theorem Spares.trans {m'' : CodeModel} (h : Spares m m') (h' : Spares m' m'') : Spares m m'' where
  names := h'.names.trans h.names
  behind := by
    intro k c hc hbehind
    exact h'.behind k c (h.behind k c hc hbehind) (h.names.symm ▸ hbehind)

theorem spares_modifyClass? {name : String} {f : Class → Option Class}
    (hf : ∀ c changed, f c = some changed → changed.name = c.name)
    (h : m.modifyClass? name f = some m') : Spares m m' := by
  refine ⟨(map_modifyClass? hf h).1, ?_⟩
  obtain ⟨c, hc, h⟩ := Option.bind_eq_some_iff.mp h
  obtain ⟨changed, -, h⟩ := Option.bind_eq_some_iff.mp h
  obtain ⟨classes, hclasses, rfl⟩ := Option.map_eq_some_iff.mp h
  obtain ⟨before, first, after, hsplit, hbefore, hfirst, rfl⟩ :=
    exists_split_of_modifyFirst? hclasses
  rintro k other hother ⟨j, hj, hname⟩
  dsimp only
  rw [getElem?_append_cons before after first changed k, ← hsplit]
  by_cases hk : k = before.length
  · -- The class that is changed has none of its name before it.
    rw [hsplit, hk, List.getElem?_append_right (Nat.le_refl _), Nat.sub_self,
      List.getElem?_cons_zero, Option.some.injEq] at hother
    rw [hsplit, List.map_append, List.getElem?_append_left (by simpa [← hk] using hj),
      List.getElem?_map] at hname
    obtain ⟨earlier, hearlier, hsame⟩ := Option.map_eq_some_iff.mp hname
    have hno := hbefore earlier (List.mem_of_getElem? hearlier)
    rw [hsame, ← hother, hfirst] at hno
    cases hno
  · rw [if_neg hk, hother]

theorem spares_linkDefinition (m : CodeModel) (definition : Operation) :
    Spares m (m.linkDefinition definition) := by
  unfold linkDefinition
  cases hattach : m.attach? definition with
  | none => exact ⟨rfl, fun _ _ hc _ => hc⟩
  | some m' =>
    unfold attach? at hattach
    split at hattach
    · refine spares_modifyClass? (fun c changed hchanged => ?_) hattach
      obtain ⟨operations, -, rfl⟩ := Option.map_eq_some_iff.mp hchanged
      rfl
    · cases hattach

theorem spares_linkInitializer (m : CodeModel) (i : StaticInitializer) :
    Spares m (m.linkInitializer i) := by
  unfold linkInitializer
  cases hvalue : m.giveValue? i with
  | none => exact ⟨rfl, fun _ _ hc _ => hc⟩
  | some m' =>
    refine spares_modifyClass? (fun c changed hchanged => ?_) hvalue
    obtain ⟨attributes, -, rfl⟩ := Option.map_eq_some_iff.mp hchanged
    rfl

theorem spares_foldl {α : Type} {step : CodeModel → α → CodeModel}
    (hstep : ∀ m a, Spares m (step m a)) (m : CodeModel) (items : List α) :
    Spares m (items.foldl step m) := by
  induction items generalizing m with
  | nil => exact ⟨rfl, fun _ _ hc _ => hc⟩
  | cons a items ih => exact (hstep m a).trans (ih (step m a))

theorem spares_link (m : CodeModel) : Spares m m.link := by
  have hdefinitions := spares_foldl spares_linkDefinition { m with operations := [] } m.operations
  have hinitializers := spares_foldl spares_linkInitializer
    { m.linkDefinitions with deferred := [] } m.linkDefinitions.deferred
  have hlinked : Spares m { m.linkDefinitions with deferred := [] } :=
    ⟨hdefinitions.names, hdefinitions.behind⟩
  exact hlinked.trans hinitializers

end

/-! ## The first class of a name -/

theorem name_of_class? {m : CodeModel} {name : String} {c : Class}
    (hc : m.class? name = some c) : c.name = name := by
  simpa using List.find?_some hc

/-- The first classes are settled just if nothing that waits finds a place. -/
theorem settled_iff_none {m : CodeModel} : (∀ name c, m.class? name = some c → m.Settled c) ↔
    (∀ o ∈ m.operations, m.attach? o = none) ∧ ∀ i ∈ m.deferred, m.giveValue? i = none := by
  constructor
  · intro hsettled
    constructor
    · intro o ho
      refine attach?_eq_none_iff.mpr fun className hclassName hbody c hc declared hdeclared => ?_
      rw [← name_of_class? hc] at hclassName
      refine Bool.eq_false_iff.mpr fun hawaits => ?_
      exact (hsettled className c hc).definitions o ho hclassName hbody declared hdeclared
        (Operation.awaits_iff.mp hawaits)
    · intro i hi
      refine giveValue?_eq_none_iff.mpr fun c hc => ?_
      exact (hsettled i.className c hc).values i hi (name_of_class? hc).symm
  · rintro ⟨hoperations, hdeferred⟩ name c hc
    obtain rfl := name_of_class? hc
    constructor
    · intro o ho hclassName hbody declared hdeclared hdeclares
      have hnone := attach?_eq_none_iff.mp (hoperations o ho) c.name hclassName hbody c hc declared
        hdeclared
      rw [Operation.awaits_iff.mpr hdeclares] at hnone
      cases hnone
    · intro i hi hclassName
      exact giveValue?_eq_none_iff.mp (hdeferred i hi) c (hclassName ▸ hc)

theorem settled_of_class? {m : CodeModel} {name : String} {c : Class}
    (hc : m.link.class? name = some c) : m.link.Settled c :=
  settled_iff_none.mpr ⟨attach?_link m, giveValue?_link m⟩ name c hc

/-- Linking changes a model just if something waits in it for the first class of a name. -/
theorem link_eq_self_iff {m : CodeModel} :
    m.link = m ↔ ∀ name c, m.class? name = some c → m.Settled c := by
  constructor
  · intro hsame name c hc
    rw [← hsame] at hc ⊢
    exact settled_of_class? hc
  · intro hsettled
    obtain ⟨hoperations, hdeferred⟩ := settled_iff_none.mp hsettled
    exact link_of_none hoperations hdeferred

/-- A class whose name no other class has is the first one of that name. -/
theorem class?_of_count {m : CodeModel} {c : Class} (hc : c ∈ m.classes)
    (hcount : (m.classes.map Class.name).count c.name = 1) : m.class? c.name = some c := by
  obtain ⟨before, after, hsplit⟩ := List.append_of_mem hc
  rw [hsplit, List.map_append, List.map_cons, List.count_append, List.count_cons_self] at hcount
  have hbefore : c.name ∉ before.map Class.name := List.count_eq_zero.mp (by omega)
  rw [class?, hsplit, List.find?_append, List.find?_eq_none.mpr, Option.none_or]
  · exact List.find?_cons_of_pos (by simp)
  · intro other hother hsame
    exact hbefore (List.mem_map.mpr ⟨other, hother, by simpa using hsame⟩)

/-- **Nothing is left to link that is meant for the first class of a name.** -/
theorem link_completes_first (m : CodeModel) :
    (∀ name c, m.link.class? name = some c → m.link.Settled c) ∧
    (∀ c ∈ m.link.classes, (m.classes.map Class.name).count c.name = 1 → m.link.Settled c) ∧
    (∀ (k : Nat) (c : Class), m.classes[k]? = some c →
      (∃ j < k, (m.classes.map Class.name)[j]? = some c.name) → m.link.classes[k]? = some c) ∧
    (m.link = m ↔ ∀ name c, m.class? name = some c → m.Settled c) := by
  refine ⟨fun _ _ hc => settled_of_class? hc, ?_, (spares_link m).behind, link_eq_self_iff⟩
  intro c hc hcount
  rw [← (spares_link m).names] at hcount
  exact settled_of_class? (class?_of_count hc hcount)

/-- A class in a package, with one declaration and one attribute. -/
def boxOf (package : String) (operations : List Operation) (attributes : List String) : Class :=
  let location := (memberOf "Box" "put" "int" "" none).location
  { package := package
    name := "Box"
    location := location
    operations := operations
    attributes := attributes.map fun name =>
      { name := name, type := .named "int", location := location } }

/-- One definition and one value are linked; another definition and another value of the same class
find nothing there and wait. -/
theorem link_completes_first_box :
    let declared := memberOf "Box" "put" "int" "n" none
    let m : CodeModel :=
      { classes := [boxOf "store" [declared] ["depth"]]
        operations :=
          [memberOf "Box" "put" "long" "n" (some "keep(n);"),
            memberOf "Box" "put" "int" "n" (some "hold(n);")]
        deferred := [⟨"Box", "width", "2"⟩, ⟨"Box", "depth", "1"⟩] }
    m.link.operations = [memberOf "Box" "put" "long" "n" (some "keep(n);")] ∧
      m.link.deferred = [⟨"Box", "width", "2"⟩] ∧
      ∃ c, m.link.class? "Box" = some c ∧ c.operations.length = 1 ∧ c.attributes.length = 1 ∧
        m.link.Settled c := by
  intro declared m
  obtain ⟨c, hc, hoperations, hattributes⟩ : ∃ c, m.link.class? "Box" = some c ∧
      c.operations.length = 1 ∧ c.attributes.length = 1 := ⟨_, rfl, rfl, rfl⟩
  exact ⟨rfl, rfl, c, hc, hoperations, hattributes, (link_completes_first m).1 "Box" c hc⟩

/-- Two classes of one name in different packages. The second one declares the operation and has the
attribute, and yet the definition and the value are left waiting. -/
theorem second_class_waits :
    let second := boxOf "store" [memberOf "Box" "put" "int" "n" none] ["depth"]
    let defined : CodeModel :=
      { classes := [boxOf "test" [] [], second]
        operations := [memberOf "Box" "put" "int" "n" (some "hold(n);")] }
    let given : CodeModel :=
      { classes := [boxOf "test" [] [], second]
        deferred := [⟨"Box", "depth", "1"⟩] }
    (¬ ∀ c ∈ defined.link.classes, defined.link.Settled c) ∧
      ¬ ∀ c ∈ given.link.classes, given.link.Settled c := by
  intro second defined given
  constructor
  · intro hsettled
    have hsecond : second ∈ defined.link.classes := .tail _ (.head _)
    have hwaits : memberOf "Box" "put" "int" "n" (some "hold(n);") ∈ defined.link.operations :=
      .head _
    exact (hsettled second hsecond).definitions _ hwaits rfl rfl _ (.head _)
      ⟨rfl, rfl, .cons rfl .nil⟩
  · intro hsettled
    have hsecond : second ∈ given.link.classes := .tail _ (.head _)
    have hwaits : ⟨"Box", "depth", "1"⟩ ∈ given.link.deferred := .head _
    exact (hsettled second hsecond).values _ hwaits rfl _ (.head _) rfl

end CodeModel

end Refactor
