import Refactor.Proofs.FileModels

/-!
# The arguments of decorators

A decorator that is a call gives an annotation with one value, which is read off the argument list.
The list is written in parentheses, and both languages drop them, in different ways.

**Theorem (`decorator_arguments_read`).** In Python the value of `(s)` is `s`. In JavaScript it is
what remains of `s` when every parenthesis that opens or closes it is dropped as well (`Bared`), so
the two agree just if `s` neither opens nor closes with a parenthesis. An argument that is a call
itself closes with one, which is lost (`call_argument_cut`).
-/

namespace Refactor

/-! ## Parentheses at the ends -/

/-- `inner` is the text without the parentheses that open and close it. -/
structure Bared (text inner : List Char) : Prop where
  around : ∃ n m, text = List.replicate n '(' ++ (inner ++ List.replicate m ')')
  not_open : inner.head? ≠ some '('
  not_closed : inner.getLast? ≠ some ')'

namespace Bared

variable {text inner : List Char}

/-- A pair of parentheses around a text is dropped with those that open and close it. -/
theorem of_wrapped (h : Bared ('(' :: (text ++ [')'])) inner) : Bared text inner := by
  obtain ⟨⟨n, m, haround⟩, hopen, hclosed⟩ := h
  refine ⟨?_, hopen, hclosed⟩
  cases n with
  | zero =>
    -- The first parenthesis would have to open what is left.
    have hhead := congrArg List.head? haround
    cases inner with
    | nil => cases m <;> simp [List.replicate_succ] at hhead
    | cons c rest => exact absurd hhead.symm hopen
  | succ n =>
    rw [List.replicate_succ, List.cons_append, List.cons.injEq, ← List.append_assoc] at haround
    cases m with
    | zero =>
      -- The last parenthesis would have to close what is left.
      have hlast := congrArg List.getLast? haround.2
      rw [List.replicate_zero, List.append_nil, List.getLast?_concat, List.getLast?_append] at hlast
      cases hinner : inner.getLast? with
      | none => cases n <;> simp [hinner, List.replicate_succ'] at hlast
      | some c =>
        rw [hinner] at hlast
        exact absurd (hinner.trans hlast.symm) hclosed
    | succ m =>
      rw [List.replicate_succ', ← List.append_assoc] at haround
      exact ⟨n, m, by rw [List.append_cancel_right haround.2, List.append_assoc]⟩

/-- Nothing is dropped just if the text neither opens nor closes with a parenthesis. -/
theorem eq_iff (h : Bared text inner) :
    inner = text ↔ text.head? ≠ some '(' ∧ text.getLast? ≠ some ')' := by
  constructor
  · rintro rfl
    exact ⟨h.not_open, h.not_closed⟩
  · rintro ⟨hopen, hclosed⟩
    obtain ⟨n, m, rfl⟩ := h.around
    cases n with
    | succ n => simp [List.replicate_succ] at hopen
    | zero =>
      cases m with
      | succ m => simp [List.replicate_succ'] at hclosed
      | zero => simp

end Bared

theorem takeWhile_eq_replicate (c : Char) (text : List Char) :
    ∃ n, text.takeWhile (· == c) = List.replicate n c := by
  refine ⟨_, List.eq_replicate_of_mem fun d hd => ?_⟩
  simpa using List.all_eq_true.mp List.all_takeWhile d hd

/-- Trimming drops what opens and closes a text. -/
theorem bared_trim (text : List Char) :
    Bared text (Text.dropWhileEnd (· == ')') (text.dropWhile (· == '('))) := by
  obtain ⟨n, hopening⟩ := takeWhile_eq_replicate '(' text
  obtain ⟨m, hclosing⟩ := takeWhile_eq_replicate ')' (text.dropWhile (· == '(')).reverse
  have hstart : text = List.replicate n '(' ++ text.dropWhile (· == '(') := by
    rw [← hopening, List.takeWhile_append_dropWhile]
  have hend : text.dropWhile (· == '(') =
      Text.dropWhileEnd (· == ')') (text.dropWhile (· == '(')) ++ List.replicate m ')' := by
    rw [Text.dropWhileEnd, ← List.reverse_inj, List.reverse_append, List.reverse_reverse,
      List.reverse_replicate, ← hclosing, List.takeWhile_append_dropWhile]
  refine ⟨⟨n, m, by rw [← hend, ← hstart]⟩, fun hopen => ?_, fun hclosed => ?_⟩
  · have hhead : (text.dropWhile (· == '(')).head? = some '(' := by
      rw [hend, List.head?_append, hopen]
      rfl
    have hnot := List.head?_dropWhile_not (· == '(') text
    rw [hhead] at hnot
    cases hnot
  · rw [Text.dropWhileEnd, List.getLast?_reverse] at hclosed
    have hnot := List.head?_dropWhile_not (· == ')') (text.dropWhile (· == '(')).reverse
    rw [hclosed] at hnot
    cases hnot

namespace Extract

/-! ## Calls -/

/-- The decorator is a call, and `s` stands between the parentheses of its argument list. -/
structure CallsWith (t : SyntaxTree) (kinds : List String) (decorator call : NodeId) (s : String) :
    Prop where
  expression : t.firstNamedChild? decorator = some call
  kind : t.kind call ∈ kinds
  arguments : t.fieldText? call "arguments" = some ("(" ++ s ++ ")")

theorem toList_wrapped (s : String) : ("(" ++ s ++ ")").toList = '(' :: (s.toList ++ [')']) := by
  simp

namespace Python

/-- One pair of parentheses is dropped. -/
theorem stripParentheses_wrapped (s : String) : stripParentheses ("(" ++ s ++ ")") = s := by
  have hlead : Text.stripLead? ['('] ("(" ++ s ++ ")").toList = some (s.toList ++ [')']) :=
    Text.stripLead?_eq_some.mpr (toList_wrapped s)
  have htail : Text.stripTail? [')'] (s.toList ++ [')']) = some s.toList := by
    simp [Text.stripTail?]
  rw [stripParentheses, hlead]
  dsimp only
  rw [htail, Option.map_some, Option.getD_some, String.ofList_toList]

theorem annotationAt_of_call {f : File} {decorator call function : NodeId} {s : String}
    (h : CallsWith f.tree ["call"] decorator call s)
    (hfunction : f.tree.childInField? call "function" = some function) {location : Location}
    (hlocation : f.locate decorator .annotationUse = .ok location) :
    annotationAt f decorator = .ok (some
      { name := f.tree.text function, location := location, values := [("value", s)] }) := by
  obtain ⟨arguments, harguments, htext⟩ := Option.map_eq_some_iff.mp h.arguments
  have hkind : f.tree.kind call = "call" := List.mem_singleton.mp h.kind
  rw [annotationAt, h.expression, hlocation]
  simp only [bind, Except.bind, hkind, hfunction, harguments, htext, stripParentheses_wrapped,
    if_true]
  rfl

end Python

namespace JavaScript

/-- All parentheses at the ends are dropped, those of the text itself included. -/
theorem bared_stripParentheses (s : String) :
    Bared s.toList (stripParentheses ("(" ++ s ++ ")")).toList := by
  have htrim := bared_trim ("(" ++ s ++ ")").toList
  rw [toList_wrapped] at htrim
  rw [stripParentheses, Text.trimEndBy, Text.trimStartBy, toList_wrapped, String.toList_ofList,
    String.toList_ofList]
  exact htrim.of_wrapped

theorem annotationAt_of_call {f : File} {decorator call : NodeId} {s : String}
    (h : CallsWith f.tree ["call_expression", "decorator_call_expression"] decorator call s)
    {location : Location} (hlocation : f.locate decorator .annotationUse = .ok location) :
    annotationAt f decorator = .ok (some
      { name := (f.tree.fieldText? call "function").getD "", location := location,
        values := [("value", stripParentheses ("(" ++ s ++ ")"))] }) := by
  obtain ⟨arguments, harguments, htext⟩ := Option.map_eq_some_iff.mp h.arguments
  have hkind := List.mem_pair.mp h.kind
  rw [annotationAt, h.expression, hlocation]
  simp only [bind, Except.bind, hkind, harguments, htext, if_true]
  rfl

end JavaScript

/-! ## Annotations -/

/-- **Decorator calls keep their arguments in Python, and lose the parentheses around them in
JavaScript.** -/
theorem decorator_arguments_read {f : File} (hpath : f.path ≠ "") (hbuilt : f.tree.Built) :
    (∀ definition parent, f.tree.parent? definition = some parent →
      f.tree.kind parent = "decorated_definition" →
      ∃ annotations, Python.decorators f definition = .ok annotations ∧
        ∀ decorator ∈ f.tree.childrenOfKind parent "decorator", ∀ call s,
          CallsWith f.tree ["call"] decorator call s →
          (f.tree.childInField? call "function").isSome = true →
          ∃ a ∈ annotations, Python.annotationAt f decorator = .ok (some a) ∧
            a.values = [("value", s)]) ∧
    ∀ declaration, ∃ annotations, JavaScript.decorators f declaration = .ok annotations ∧
      ∀ decorator ∈ f.tree.childrenOfKind declaration "decorator", ∀ call s,
        CallsWith f.tree ["call_expression", "decorator_call_expression"] decorator call s →
        ∃ a ∈ annotations, JavaScript.annotationAt f decorator = .ok (some a) ∧
          (∃ v : String, a.values = [("value", v)] ∧ Bared s.toList v.toList) ∧
          (a.values = [("value", s)] ↔
            s.toList.head? ≠ some '(' ∧ s.toList.getLast? ≠ some ')') := by
  have hsound : f.Sound := ⟨hpath, hbuilt.wellFormed⟩
  constructor
  · intro definition parent hparent hkind
    obtain ⟨annotations, hannotations⟩ := Python.succeeds_decorators hsound definition
    refine ⟨annotations, hannotations, fun decorator hdecorator call s hcall hfunction => ?_⟩
    obtain ⟨function, hfunction⟩ := Option.isSome_iff_exists.mp hfunction
    obtain ⟨location, hlocation⟩ := succeeds_locate hsound decorator .annotationUse
    have hread := Python.annotationAt_of_call hcall hfunction hlocation
    rw [Python.decorators, hparent] at hannotations
    dsimp only at hannotations
    rw [if_pos hkind] at hannotations
    exact ⟨_, (mem_collect hannotations).mpr ⟨decorator, hdecorator, hread⟩, hread, rfl⟩
  · intro declaration
    obtain ⟨annotations, hannotations⟩ := JavaScript.succeeds_decorators hsound declaration
    refine ⟨annotations, hannotations, fun decorator hdecorator call s hcall => ?_⟩
    obtain ⟨location, hlocation⟩ := succeeds_locate hsound decorator .annotationUse
    have hread := JavaScript.annotationAt_of_call hcall hlocation
    have hbared := JavaScript.bared_stripParentheses s
    refine ⟨_, (mem_collect hannotations).mpr ⟨decorator, hdecorator, hread⟩, hread,
      ⟨_, rfl, hbared⟩, ?_⟩
    rw [← hbared.eq_iff, String.toList_inj]
    simp

/-- A class with a decorator whose argument is a call, in Python. -/
def Python.taggedClass : SyntaxTree :=
  [nodeOf "module" none 0 21 none,
    nodeOf "decorated_definition" none 0 21 (some 0),
    nodeOf "decorator" none 0 10 (some 1),
    nodeOf "call" none 1 10 (some 2),
    nodeOf "identifier" (some "function") 1 4 (some 3),
    nodeOf "argument_list" (some "arguments") 4 10 (some 3),
    nodeOf "class_definition" (some "definition") 11 21 (some 1)].foldl SyntaxTree.attach
      { source := "@tag(f(1))\nclass A: 0" }

/-- The same class in JavaScript. -/
def JavaScript.taggedClass : SyntaxTree :=
  [nodeOf "program" none 0 20 none,
    nodeOf "class_declaration" none 0 20 (some 0),
    nodeOf "decorator" (some "decorator") 0 10 (some 1),
    nodeOf "call_expression" none 1 10 (some 2),
    nodeOf "identifier" (some "function") 1 4 (some 3),
    nodeOf "arguments" (some "arguments") 4 10 (some 3)].foldl SyntaxTree.attach
      { source := "@tag(f(1)) class A{}" }

theorem Python.callsWith_taggedClass : CallsWith taggedClass ["call"] 2 3 "f(1)" :=
  ⟨by decide +kernel, by decide +kernel, by decide +kernel⟩

theorem JavaScript.callsWith_taggedClass :
    CallsWith taggedClass ["call_expression", "decorator_call_expression"] 2 3 "f(1)" :=
  ⟨by decide +kernel, by decide +kernel, by decide +kernel⟩

theorem decorator_arguments_read_taggedClass :
    Python.taggedClass.Built ∧ JavaScript.taggedClass.Built ∧
      CallsWith Python.taggedClass ["call"] 2 3 "f(1)" ∧
      CallsWith JavaScript.taggedClass ["call_expression", "decorator_call_expression"] 2 3
        "f(1)" ∧
      (∃ annotations, Python.decorators ⟨"tag.py", Python.taggedClass⟩ 6 = .ok annotations ∧
        ∃ a ∈ annotations, a.values = [("value", "f(1)")]) ∧
      ∃ annotations, JavaScript.decorators ⟨"tag.js", JavaScript.taggedClass⟩ 1 =
        .ok annotations ∧ ∃ a ∈ annotations, a.values ≠ [("value", "f(1)")] := by
  have hpython : Python.taggedClass.Built :=
    SyntaxTree.built_attachAll (by decide +kernel) (by decide +kernel)
  have hscript : JavaScript.taggedClass.Built :=
    SyntaxTree.built_attachAll (by decide +kernel) (by decide +kernel)
  have hcall := Python.callsWith_taggedClass
  have hcall' := JavaScript.callsWith_taggedClass
  obtain ⟨annotations, hread, hvalues⟩ :=
    (decorator_arguments_read (f := ⟨"tag.py", Python.taggedClass⟩) (by decide) hpython).1 6 1
      (by decide +kernel) (by decide +kernel)
  obtain ⟨annotations', hread', hvalues'⟩ :=
    (decorator_arguments_read (f := ⟨"tag.js", JavaScript.taggedClass⟩) (by decide) hscript).2 1
  obtain ⟨a, ha, -, hvalue⟩ := hvalues 2 (by decide +kernel) 3 "f(1)" hcall (by decide +kernel)
  obtain ⟨a', ha', -, -, hkept⟩ := hvalues' 2 (by decide +kernel) 3 "f(1)" hcall'
  refine ⟨hpython, hscript, hcall, hcall', ⟨annotations, hread, a, ha, hvalue⟩,
    annotations', hread', a', ha', fun hvalue => ?_⟩
  exact (hkept.mp hvalue).2 (by decide +kernel)

/-- The argument `f(1)` is recorded as `f(1`. -/
theorem call_argument_cut :
    CallsWith JavaScript.taggedClass ["call_expression", "decorator_call_expression"] 2 3
        "f(1)" ∧
      (JavaScript.decorators ⟨"tag.js", JavaScript.taggedClass⟩ 1).toOption.map
        (List.map Annotation.values) = some [[("value", "f(1")]] :=
  ⟨JavaScript.callsWith_taggedClass, by decide +kernel⟩

end Extract

end Refactor
