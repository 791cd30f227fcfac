import Refactor.Extract.TypeText
import Refactor.Proofs.Attachment
import Refactor.Proofs.OperationIndex

/-!
# What a signature tells

A signature is one text: the qualified name and the names of the parameters' types, with
parentheses and commas between them. All of these can be had back from the text if the names of
types close their brackets and have commas between brackets only (`Closed`). Then the last
parenthesis that the signature closes opens after the qualified name (`append_paren_inj`), and the
commas outside of brackets are those between the names (`intercalate_inj`).

**Theorem (`signatureKey_keeps_apart`).** Outside of Python, operations have the same signature
just if qualified names and names of types agree. An operation is left out of the index just if a
later one agrees with it in these. So where the names of types tell types apart, no overload is
lost.

The arguments of a type are not part of its name. Overloads that differ in nothing else have one
signature, and only the last of them is compared (`template_overload_lost`).
-/

namespace Refactor

/-! ## Brackets -/

namespace Signature

def isOpening (c : Char) : Bool :=
  c == '(' || c == '<' || c == '['

def isClosing (c : Char) : Bool :=
  c == ')' || c == '>' || c == ']'

/-- As many brackets are closed as are opened, and none before it is opened. -/
structure Balanced (text : List Char) : Prop where
  even : text.countP isClosing = text.countP isOpening
  opened : ∀ before after, text = before ++ after →
    before.countP isClosing ≤ before.countP isOpening

/-- A name in which commas and closing brackets stand where a bracket is open, and in which no
bracket stays open. -/
structure Closed (name : List Char) : Prop where
  nonempty : name ≠ []
  even : name.countP isClosing = name.countP isOpening
  inside : ∀ before c after, name = before ++ c :: after → c = ',' ∨ isClosing c = true →
    before.countP isClosing < before.countP isOpening

theorem closed_iff {name : List Char} : Closed name ↔
    name ≠ [] ∧ name.countP isClosing = name.countP isOpening ∧
      ∀ n < name.length, name[n]?.any (fun c => c == ',' || isClosing c) = true →
        (name.take n).countP isClosing < (name.take n).countP isOpening := by
  constructor
  · intro h
    refine ⟨h.nonempty, h.even, fun n hn hinside => ?_⟩
    rw [List.getElem?_eq_getElem hn, Option.any_some, Bool.or_eq_true, beq_iff_eq] at hinside
    refine h.inside _ name[n] (name.drop (n + 1)) ?_ hinside
    rw [← List.drop_eq_getElem_cons hn, List.take_append_drop]
  · rintro ⟨hne, heven, hinside⟩
    refine ⟨hne, heven, fun before c after hsplit hc => ?_⟩
    subst hsplit
    simpa [hc] using hinside before.length (by simp)

instance (name : List Char) : Decidable (Closed name) :=
  decidable_of_iff' _ closed_iff

theorem Closed.balanced {name : List Char} (h : Closed name) : Balanced name := by
  refine ⟨h.even, fun before => ?_⟩
  -- A prefix that ends with a closing bracket has one open before that.
  induction before using List.reverseRecOn with
  | nil => exact fun _ _ => Nat.le_refl _
  | append_singleton before c ih =>
    intro after hsplit
    rw [List.append_assoc, List.singleton_append] at hsplit
    have hbefore := ih (c :: after) hsplit
    rw [List.countP_append, List.countP_append, List.countP_singleton, List.countP_singleton]
    by_cases hc : isClosing c = true
    · have hinside := h.inside before c after hsplit (.inr hc)
      rw [if_pos hc]
      omega
    · rw [if_neg hc]
      omega

theorem balanced_nil : Balanced [] := by
  refine ⟨rfl, fun before after hsplit => ?_⟩
  rw [(List.append_eq_nil_iff.mp hsplit.symm).1]
  exact Nat.le_refl _

theorem balanced_comma : Balanced [','] := by
  refine ⟨rfl, fun before after hsplit => ?_⟩
  rcases List.singleton_eq_append_iff.mp hsplit with ⟨rfl, -⟩ | ⟨rfl, -⟩
  · exact Nat.le_refl _
  · exact Nat.le_refl _

theorem Balanced.append {left right : List Char} (hleft : Balanced left)
    (hright : Balanced right) : Balanced (left ++ right) := by
  have heven := hleft.even
  refine ⟨?_, fun before after hsplit => ?_⟩
  · rw [List.countP_append, List.countP_append, heven, hright.even]
  · rcases List.append_eq_append_iff.mp hsplit with ⟨more, rfl, rfl⟩ | ⟨more, rfl, rfl⟩
    · have hmore := hright.opened more after rfl
      rw [List.countP_append, List.countP_append]
      omega
    · exact hleft.opened before more rfl

theorem balanced_intercalate {names : List (List Char)} (h : ∀ name ∈ names, Closed name) :
    Balanced ([','].intercalate names) := by
  induction names with
  | nil => exact balanced_nil
  | cons name names ih =>
    have hname := (h name List.mem_cons_self).balanced
    cases names with
    | nil => rwa [List.intercalate_singleton]
    | cons next names =>
      rw [List.intercalate_cons_cons]
      exact (hname.append balanced_comma).append
        (ih fun other hother => h other (List.mem_cons_of_mem _ hother))

/-- A bracket that is open before a balanced text stays open. -/
theorem Balanced.not_opening {before text : List Char} {c : Char} (hc : isOpening c = true)
    (htext : Balanced text) : ¬ Balanced (before ++ c :: text) := by
  intro h
  have hnot : isClosing c = false := by
    simp only [isOpening, Bool.or_eq_true, beq_iff_eq] at hc
    rcases hc with (rfl | rfl) | rfl <;> rfl
  have hbefore := h.opened before (c :: text) rfl
  have heven := h.even
  have hinner := htext.even
  simp only [List.countP_append, List.countP_cons, hc, hnot, Bool.false_eq_true, if_true,
    if_false] at heven
  omega

/-! ## The parts of a signature -/

/-- **The parenthesis that opens before balanced text is the last one to stay open.** -/
theorem append_paren_inj {a b types types' : List Char} (htypes : Balanced types)
    (htypes' : Balanced types') (h : a ++ '(' :: types = b ++ '(' :: types') :
    a = b ∧ types = types' := by
  rcases List.append_eq_append_iff.mp h with ⟨more, rfl, hmore⟩ | ⟨more, rfl, hmore⟩
  · cases more with
    | nil => simpa using hmore
    | cons c more =>
      obtain ⟨-, rfl⟩ := List.cons.inj hmore
      exact absurd htypes (htypes'.not_opening rfl)
  · cases more with
    | nil => simpa [eq_comm] using hmore
    | cons c more =>
      obtain ⟨-, rfl⟩ := List.cons.inj hmore
      exact absurd htypes' (htypes.not_opening rfl)

/-- No comma outside of brackets is part of a closed name. -/
theorem Closed.not_append_comma {before after : List Char} (hbefore : Balanced before) :
    ¬ Closed (before ++ ',' :: after) := fun h =>
  absurd (h.inside before ',' after rfl (.inl rfl)) (by rw [hbefore.even]; exact Nat.lt_irrefl _)

/-- A closed name ends before the next comma outside of brackets. -/
theorem Closed.append_inj {name name' rest rest' : List Char} (hname : Closed name)
    (hname' : Closed name') (hrest : ∀ c ∈ rest.head?, c = ',')
    (hrest' : ∀ c ∈ rest'.head?, c = ',')
    (h : name ++ rest = name' ++ rest') : name = name' ∧ rest = rest' := by
  rcases List.append_eq_append_iff.mp h with ⟨more, rfl, rfl⟩ | ⟨more, rfl, rfl⟩
  · cases more with
    | nil => simp
    | cons c more =>
      obtain rfl := hrest c rfl
      exact absurd hname' (Closed.not_append_comma hname.balanced)
  · cases more with
    | nil => simp
    | cons c more =>
      obtain rfl := hrest' c rfl
      exact absurd hname (Closed.not_append_comma hname'.balanced)

/-- The names, each after a comma. -/
def listed (names : List (List Char)) : List Char :=
  names.flatMap (',' :: ·)

theorem head?_listed (names : List (List Char)) : ∀ c ∈ (listed names).head?, c = ',' := by
  cases names with
  | nil => exact fun _ hc => absurd hc nofun
  | cons name names => exact fun _ hc => (Option.some.inj hc).symm

theorem comma_cons_intercalate {names : List (List Char)} (h : names ≠ []) :
    ',' :: [','].intercalate names = listed names := by
  induction names with
  | nil => exact absurd rfl h
  | cons name names ih =>
    cases names with
    | nil => simp [listed]
    | cons next names =>
      rw [List.intercalate_cons_cons, List.append_assoc, List.singleton_append,
        ih (List.cons_ne_nil _ _)]
      rfl

theorem listed_inj {names names' : List (List Char)} (h : ∀ name ∈ names, Closed name)
    (h' : ∀ name ∈ names', Closed name) (heq : listed names = listed names') : names = names' := by
  induction names generalizing names' with
  | nil =>
    cases names' with
    | nil => rfl
    | cons name' names' => cases heq
  | cons name names ih =>
    cases names' with
    | nil => cases heq
    | cons name' names' =>
      obtain ⟨rfl, hrest⟩ := (h name List.mem_cons_self).append_inj (h' name' List.mem_cons_self)
        (head?_listed names) (head?_listed names') (List.cons.inj heq).2
      rw [ih (fun other hother => h other (List.mem_cons_of_mem _ hother))
        (fun other hother => h' other (List.mem_cons_of_mem _ hother)) hrest]

theorem intercalate_ne_nil {name : List Char} (h : Closed name) (names : List (List Char)) :
    [','].intercalate (name :: names) ≠ [] := by
  cases names with
  | nil =>
    rw [List.intercalate_singleton]
    exact h.nonempty
  | cons next names => simp [List.intercalate_cons_cons]

/-- **Closed names can be had back from the text that lists them.** -/
theorem intercalate_inj {names names' : List (List Char)} (h : ∀ name ∈ names, Closed name)
    (h' : ∀ name ∈ names', Closed name)
    (heq : [','].intercalate names = [','].intercalate names') : names = names' := by
  cases names with
  | nil =>
    cases names' with
    | nil => rfl
    | cons name' names' =>
      exact absurd heq.symm (intercalate_ne_nil (h' name' List.mem_cons_self) names')
  | cons name names =>
    cases names' with
    | nil => exact absurd heq (intercalate_ne_nil (h name List.mem_cons_self) names)
    | cons name' names' =>
      refine listed_inj h h' ?_
      rw [← comma_cons_intercalate (List.cons_ne_nil _ _), heq,
        comma_cons_intercalate (List.cons_ne_nil _ _)]

end Signature

/-- The names of the types of an operation's parameters. -/
def Operation.typeNames (o : Operation) : List String :=
  o.parameters.map fun p => p.type.name

theorem Operation.typeNames_eq_iff {a b : Operation} : a.typeNames = b.typeNames ↔
    List.Forall₂ (fun p q => p.type.name = q.type.name) a.parameters b.parameters := by
  unfold typeNames
  rw [← List.forall₂_map_right_iff, ← List.forall₂_map_left_iff, List.forall₂_eq_eq_eq]

theorem Operation.typeNames_eq_of_same {a b : Operation} (h : a.sameParameterTypes b = true) :
    a.typeNames = b.typeNames :=
  typeNames_eq_iff.mpr (((sameParameterTypes_iff a b).mp h).imp fun _ _ =>
    TypeRef.name_eq_of_same)

namespace Diff

open Signature

/-! ## Signatures -/

/-- Operations whose type names can be told apart in a signature. -/
def ClosedTypes (operations : List Operation) : Prop :=
  ∀ o ∈ operations, ∀ name ∈ o.typeNames, Closed name.toList

/-- Among the operations, types of the same name are the same. -/
def NamesTellTypes (operations : List Operation) : Prop :=
  ∀ a ∈ operations, ∀ b ∈ operations, ∀ p ∈ a.parameters, ∀ q ∈ b.parameters,
    p.type.name = q.type.name → (p.type == q.type) = true

theorem toList_signatureKey {old : CodeModel} (h : old.isPython = false) (o : Operation) :
    (signatureKey old o).toList = o.qualifiedName.toList ++
      '(' :: [','].intercalate (o.typeNames.map String.toList) ++ [')'] := by
  have hopen : "(".toList = ['('] := by decide
  have hclose : ")".toList = [')'] := by decide
  have hcomma : ",".toList = [','] := by decide
  unfold signatureKey Text.join Operation.typeNames
  rw [h, if_neg Bool.false_ne_true, String.toList_append, String.toList_append,
    String.toList_append, String.toList_intercalate, hopen, hclose, hcomma]
  simp

/-- **A signature tells the qualified name and the names of the types.** -/
theorem signatureKey_eq_iff {old : CodeModel} (hold : old.isPython = false) {a b : Operation}
    (ha : ∀ name ∈ a.typeNames, Closed name.toList)
    (hb : ∀ name ∈ b.typeNames, Closed name.toList) :
    signatureKey old a = signatureKey old b ↔
      a.qualifiedName = b.qualifiedName ∧ a.typeNames = b.typeNames := by
  have hclosed : ∀ {o : Operation}, (∀ name ∈ o.typeNames, Closed name.toList) →
      ∀ name ∈ o.typeNames.map String.toList, Closed name := by
    intro o ho name hname
    obtain ⟨text, htext, rfl⟩ := List.mem_map.mp hname
    exact ho text htext
  rw [← String.toList_inj, toList_signatureKey hold, toList_signatureKey hold]
  constructor
  · intro heq
    obtain ⟨hqualified, htypes⟩ := append_paren_inj (balanced_intercalate (hclosed ha))
      (balanced_intercalate (hclosed hb)) (List.append_cancel_right heq)
    have hnames := intercalate_inj (hclosed ha) (hclosed hb) htypes
    exact ⟨String.toList_inj.mp hqualified,
      List.map_injective_iff.mpr (fun _ _ => String.toList_inj.mp) hnames⟩
  · rintro ⟨hqualified, htypes⟩
    rw [hqualified, htypes]

theorem sameParameterTypes_of_typeNames {operations : List Operation}
    (htell : NamesTellTypes operations) {a b : Operation} (ha : a ∈ operations)
    (hb : b ∈ operations) (h : a.typeNames = b.typeNames) : a.sameParameterTypes b = true := by
  obtain ⟨hlength, hnames⟩ := List.forall₂_iff_zip.mp (Operation.typeNames_eq_iff.mp h)
  refine (Operation.sameParameterTypes_iff a b).mpr (List.forall₂_iff_zip.mpr ⟨hlength, ?_⟩)
  intro p q hpq
  obtain ⟨hp, hq⟩ := List.of_mem_zip hpq
  exact htell a ha b hb p hp q hq (hnames hpq)

/-! ## Operations that are kept -/

namespace OperationIndex

theorem insert_of_notMem {key : String} {index : OperationIndex}
    (h : key ∉ index.map Prod.fst) (o : Operation) : insert key o index = index ++ [(key, o)] := by
  induction index with
  | nil => rfl
  | cons entry rest ih =>
    rw [List.map_cons, List.mem_cons, not_or] at h
    rw [insert, if_neg (Ne.symm h.1), ih h.2, List.cons_append]

/-- An operation is kept just if no later one has its key. -/
theorem mem_map_snd_iff {keyOf : Operation → String} {operations : List Operation}
    {o : Operation} : o ∈ (ofOperations keyOf operations).map Prod.snd ↔
      ∃ earlier later, operations = earlier ++ o :: later ∧ ∀ b ∈ later, keyOf b ≠ keyOf o := by
  rw [List.mem_map]
  constructor
  · rintro ⟨⟨key, o'⟩, hentry, rfl⟩
    obtain ⟨hkey, later, earlier, hsplit, hlater⟩ :=
      List.find?_eq_some_iff_append.mp (mem_ofOperations.mp hentry)
    have hkey : keyOf o' = key := of_decide_eq_true hkey
    refine ⟨earlier.reverse, later.reverse, ?_, fun b hb => ?_⟩
    · rw [← List.reverse_reverse operations, hsplit]
      simp
    · rw [hkey]
      simpa using hlater b (List.mem_reverse.mp hb)
  · rintro ⟨earlier, later, rfl, hlater⟩
    refine ⟨(keyOf o, o), mem_ofOperations.mpr (List.find?_eq_some_iff_append.mpr ?_), rfl⟩
    refine ⟨decide_eq_true rfl, later.reverse, earlier.reverse, by simp, fun b hb => ?_⟩
    simpa using hlater b (List.mem_reverse.mp hb)

/-- With keys of their own all operations are kept, in their order. -/
theorem ofOperations_of_nodup {keyOf : Operation → String} {operations : List Operation}
    (h : (operations.map keyOf).Nodup) :
    ofOperations keyOf operations = operations.map fun o => (keyOf o, o) := by
  induction operations using List.reverseRecOn with
  | nil => rfl
  | append_singleton operations o ih =>
    rw [List.map_append, List.map_singleton, ← List.concat_eq_append,
      List.nodup_concat] at h
    have hfresh : keyOf o ∉ (operations.map fun o => (keyOf o, o)).map Prod.fst := by
      rw [List.map_map]
      exact h.1
    rw [ofOperations_concat, ih h.2, insert_of_notMem hfresh, List.map_append]
    rfl

end OperationIndex

/-- **Outside of Python overloads are kept apart by the names of their types.** -/
theorem signatureKey_keeps_apart (old : CodeModel) (hold : old.isPython = false)
    (operations : List Operation) (hclosed : ClosedTypes operations) :
    let index := OperationIndex.ofOperations (signatureKey old) operations
    (∀ a ∈ operations, ∀ b ∈ operations, signatureKey old a = signatureKey old b ↔
        a.qualifiedName = b.qualifiedName ∧ a.typeNames = b.typeNames) ∧
      (∀ o, o ∈ index.map Prod.snd ↔
        ∃ earlier later, operations = earlier ++ o :: later ∧ ∀ b ∈ later,
          ¬ (b.qualifiedName = o.qualifiedName ∧ b.typeNames = o.typeNames)) ∧
      (NamesTellTypes operations →
        (∀ a ∈ operations, ∀ b ∈ operations, signatureKey old a = signatureKey old b ↔
          a.qualifiedName = b.qualifiedName ∧ a.sameParameterTypes b = true) ∧
        (operations.Pairwise (fun a b =>
            ¬ (a.qualifiedName = b.qualifiedName ∧ a.sameParameterTypes b = true)) →
          index.map Prod.snd = operations)) := by
  intro index
  have hkeys : ∀ a ∈ operations, ∀ b ∈ operations, signatureKey old a = signatureKey old b ↔
      a.qualifiedName = b.qualifiedName ∧ a.typeNames = b.typeNames := fun a ha b hb =>
    signatureKey_eq_iff hold (hclosed a ha) (hclosed b hb)
  refine ⟨hkeys, fun o => ?_, fun htell => ?_⟩
  · rw [OperationIndex.mem_map_snd_iff]
    refine exists_congr fun earlier => exists_congr fun later => and_congr_right fun hsplit => ?_
    refine forall_congr' fun b => forall_congr' fun hb => not_congr (hkeys b ?_ o ?_)
    · rw [hsplit]
      exact List.mem_append_right _ (List.mem_cons_of_mem _ hb)
    · rw [hsplit]
      exact List.mem_append_right _ List.mem_cons_self
  · have htypes : ∀ a ∈ operations, ∀ b ∈ operations, signatureKey old a = signatureKey old b ↔
        a.qualifiedName = b.qualifiedName ∧ a.sameParameterTypes b = true := by
      intro a ha b hb
      rw [hkeys a ha b hb]
      exact and_congr_right fun _ =>
        ⟨sameParameterTypes_of_typeNames htell ha hb, Operation.typeNames_eq_of_same⟩
    refine ⟨htypes, fun hdistinct => ?_⟩
    have hnodup : (operations.map (signatureKey old)).Nodup :=
      List.pairwise_map.mpr (hdistinct.imp_of_mem fun ha hb hne heq =>
        hne ((htypes _ ha _ hb).mp heq))
    have hindex : index = operations.map fun o => (signatureKey old o, o) :=
      OperationIndex.ofOperations_of_nodup hnodup
    rw [hindex, List.map_map]
    exact List.map_id _

/-- A function of some parameters, which has nothing but a place and a body. -/
def overload (start : Point) (types : List TypeRef) (body : String) : Operation :=
  let location : Location :=
    ⟨"sum.cpp", start, start, .methodDeclaration, by decide, Point.le_refl start⟩
  { name := "total"
    location := location
    parameters := types.map fun type => { name := "x", type := type, location := location }
    body := some body }

/-- Overloads by number and names of types, one of which has a comma between brackets. -/
theorem signatureKey_keeps_apart_iterator :
    let old : CodeModel := { language := some .cpp }
    let entry := TypeRef.named "std::map<int, int>::iterator"
    let operations := [overload ⟨0, 0⟩ [] "return 0;", overload ⟨1, 0⟩ [.named "int"] "return x;",
      overload ⟨2, 0⟩ [entry] "return x->first;",
      overload ⟨3, 0⟩ [entry, .named "int"] "return x->second;"]
    old.isPython = false ∧ ClosedTypes operations ∧ NamesTellTypes operations ∧
      (OperationIndex.ofOperations (signatureKey old) operations).map Prod.snd = operations := by
  intro old entry operations
  have hclosed : ClosedTypes operations := by
    unfold ClosedTypes
    decide +kernel
  have htell : NamesTellTypes operations := by
    unfold NamesTellTypes
    decide +kernel
  obtain ⟨-, -, htypes⟩ := signatureKey_keeps_apart old rfl operations hclosed
  exact ⟨rfl, hclosed, htell, (htypes htell).2 (by decide +kernel)⟩

/-- Of two overloads for vectors of different elements the first is lost. -/
theorem template_overload_lost :
    let ints := overload ⟨0, 0⟩ [Extract.typeOfText "std::vector<int>"] "return sum(x);"
    let doubles := overload ⟨1, 0⟩ [Extract.typeOfText "std::vector<double>"] "return mean(x);"
    let model : CodeModel := { language := some .cpp, operations := [ints, doubles] }
    signatureKey model ints = signatureKey model doubles ∧
      ints.sameParameterTypes doubles = false ∧
      (OperationIndex.ofOperations (signatureKey model) model.allOperations).map
        (fun entry => (entry.1, entry.2.body)) =
        [("total(std::vector)", some "return mean(x);")] ∧
      (matchOperations {} model model).length = 1 := by
  decide +kernel

end Diff

end Refactor
