import Refactor.Proofs.Attachment
import Refactor.Proofs.QualifiedNames

/-!
# Types that are written and read again

A type is written as its name, with the arguments between angle brackets. Reading cuts the text at
the commas outside of brackets and reads every part again.

Reading keeps count of the open brackets. What is written for a type leaves the count as it was and
has no comma where no bracket is open, so it is passed over as a whole: `Kept 0`. Between the
brackets of another type a comma may stand too: `Kept 1`. Both are kept by putting texts together,
and brackets make the first out of the second (`Kept.enclose`), which is one step of an induction
over types (`whole_display`).

**Theorem (`typeOfText_inverts_display`).** Every type whose names cannot be taken for anything else
is read as it was written, with the marks that its names call for, at every depth. Every text at all
can be read: its cuts lie in the text, and what is read again is shorter.
-/

namespace Refactor

namespace TypeRef

/-! ## Types that can be told from their text -/

/-- A name without blanks at its ends and without brackets and commas. -/
def isPlainName (name : String) : Bool :=
  name.toList.head?.any (fun c => !Text.isBlank c) &&
    name.toList.getLast?.any (fun c => !Text.isBlank c) &&
    name.toList.all fun c => !(['<', '>', '(', ')', ','].contains c)

/-- All names in a type are plain, and nothing is written behind them but arguments. -/
inductive Plain : TypeRef → Prop
  | intro {t : TypeRef} (hname : isPlainName t.name = true) (hdimensions : t.dimensions = 0)
      (hvarargs : t.isVarargs = false) (harguments : ∀ a ∈ t.arguments, Plain a) : Plain t

/-- The last segment of a name stands in a table. -/
def EndsIn (table : List String) (name : String) : Prop :=
  ∃ segment ∈ table, name = segment ∨ ∃ scope, name = scope ++ "::" ++ segment

/-- At every level of a type, the marks are those that a name with arguments calls for. -/
inductive Marked : TypeRef → Prop
  | intro {t : TypeRef}
      (hcollection : t.isCollection = true ↔
        t.arguments ≠ [] ∧ EndsIn Extract.collectionNames t.name)
      (hmap : t.isMap = true ↔ t.arguments ≠ [] ∧ EndsIn Extract.mapNames t.name)
      (harguments : ∀ a ∈ t.arguments, Marked a) : Marked t

theorem beq_iff {t u : TypeRef} : (t == u) = true ↔ t.name = u.name ∧
    List.Forall₂ (fun a b => (a == b) = true) t.arguments u.arguments ∧
    t.dimensions = u.dimensions ∧ t.isVarargs = u.isVarargs := by
  obtain ⟨name, arguments, annotations, dimensions, isCollection, isMap, isVarargs⟩ := t
  obtain ⟨name', arguments', annotations', dimensions', isCollection', isMap', isVarargs'⟩ := u
  show same _ _ = true ↔ _
  simp [same, sameAll_iff_forall₂, and_assoc]

theorem displayAll_eq_map (ts : List TypeRef) : displayAll ts = ts.map display := by
  induction ts with
  | nil => rfl
  | cons t ts ih => rw [displayAll, ih, List.map_cons]

/-- The arguments of a type as they are written. -/
def argumentChars (texts : List (List Char)) : List Char :=
  if texts = [] then [] else '<' :: ([',', ' '].intercalate texts ++ ['>'])

theorem toList_display {t : TypeRef} (hdimensions : t.dimensions = 0)
    (hvarargs : t.isVarargs = false) :
    t.display.toList =
      t.name.toList ++ argumentChars (t.arguments.map fun a => a.display.toList) := by
  obtain ⟨name, arguments, annotations, dimensions, isCollection, isMap, isVarargs⟩ := t
  dsimp only at hdimensions hvarargs
  subst hdimensions hvarargs
  have hopen : "<".toList = ['<'] := rfl
  have hclose : ">".toList = ['>'] := rfl
  have hcomma : ", ".toList = [',', ' '] := rfl
  rw [display, displayAll_eq_map]
  cases arguments with
  | nil => simp [argumentChars]
  | cons a arguments =>
    simp only [List.map_cons, Text.join, String.toList_append, String.toList_intercalate, hopen,
      hclose, hcomma, argumentChars]
    simp [Function.comp_def]

end TypeRef

namespace Extract

open TypeRef

/-! ## Passing over a text -/

/-- Every text has a first part. -/
theorem exists_topLevelParts (depth : Nat) (cs : List Char) :
    ∃ part parts, topLevelParts depth cs = part :: parts := by
  cases cs with
  | nil => exact ⟨[], [], rfl⟩
  | cons c cs =>
    rw [topLevelParts]
    split
    · exact ⟨_, _, rfl⟩
    · split <;> exact ⟨_, _, rfl⟩

theorem topLevelParts_comma (cs : List Char) :
    topLevelParts 0 (',' :: cs) = [] :: topLevelParts 0 cs := by
  rw [topLevelParts, if_pos ⟨rfl, rfl⟩]

theorem topLevelParts_cons {c : Char} {depth : Nat} (h : c ≠ ',' ∨ depth ≠ 0) (cs : List Char) :
    topLevelParts depth (c :: cs) =
      (topLevelParts (bracketDepth depth c) cs).modifyHead (c :: ·) := by
  rw [topLevelParts, if_neg (by tauto)]
  obtain ⟨part, parts, hparts⟩ := exists_topLevelParts (bracketDepth depth c) cs
  rw [hparts]
  rfl

/-- The parts of a text, with the commas between them, make it up. -/
theorem intercalate_topLevelParts (depth : Nat) (cs : List Char) :
    [','].intercalate (topLevelParts depth cs) = cs := by
  induction cs generalizing depth with
  | nil => rfl
  | cons c cs ih =>
    by_cases hcomma : c = ',' ∧ depth = 0
    · obtain ⟨rfl, rfl⟩ := hcomma
      have hrest := ih 0
      obtain ⟨part, parts, hparts⟩ := exists_topLevelParts 0 cs
      rw [topLevelParts_comma, hparts, List.intercalate_cons_cons, ← hparts, hrest]
      rfl
    · have hrest := ih (bracketDepth depth c)
      obtain ⟨part, parts, hparts⟩ := exists_topLevelParts (bracketDepth depth c) cs
      rw [topLevelParts_cons (by tauto), hparts]
      rw [hparts] at hrest
      cases parts with
      | nil => simpa using hrest
      | cons next parts =>
        rw [List.intercalate_cons_cons] at hrest
        simp [List.intercalate_cons_cons, ← hrest]

/-- Where at least so many brackets are open, the text is passed over as a whole, and as many
brackets are open behind it. -/
def Kept (low : Nat) (cs : List Char) : Prop :=
  ∀ depth, low ≤ depth → ∀ rest,
    topLevelParts depth (cs ++ rest) = (topLevelParts depth rest).modifyHead (cs ++ ·)

theorem kept_nil (low : Nat) : Kept low [] := by
  intro depth _ rest
  obtain ⟨part, parts, hparts⟩ := exists_topLevelParts depth rest
  simp [hparts]

theorem Kept.mono {low high : Nat} {cs : List Char} (h : Kept low cs) (hle : low ≤ high) :
    Kept high cs := fun depth hdepth => h depth (Nat.le_trans hle hdepth)

theorem Kept.append {low : Nat} {left right : List Char} (hleft : Kept low left)
    (hright : Kept low right) : Kept low (left ++ right) := by
  intro depth hdepth rest
  rw [List.append_assoc, hleft depth hdepth, hright depth hdepth, List.modifyHead_modifyHead]
  congr 1
  funext part
  simp

theorem kept_singleton {low : Nat} {c : Char} (hc : c ∉ ['<', '>', '(', ')'])
    (hcomma : c = ',' → 0 < low) : Kept low [c] := by
  intro depth hdepth rest
  have hsame : bracketDepth depth c = depth := by
    simp only [List.mem_cons, List.not_mem_nil, or_false, not_or] at hc
    simp [bracketDepth, hc]
  have hpassed : c ≠ ',' ∨ depth ≠ 0 := by
    by_cases h : c = ','
    · have := hcomma h
      exact .inr (by omega)
    · exact .inl h
  rw [List.singleton_append, topLevelParts_cons hpassed, hsame]
  rfl

theorem kept_of_forall {low : Nat} {cs : List Char} (h : ∀ c ∈ cs, Kept low [c]) :
    Kept low cs := by
  induction cs with
  | nil => exact kept_nil low
  | cons c cs ih =>
    rw [List.forall_mem_cons] at h
    exact h.1.append (ih h.2)

/-- Brackets around a text hide its commas. -/
theorem Kept.enclose {cs : List Char} (h : Kept 1 cs) : Kept 0 ('<' :: (cs ++ ['>'])) := by
  intro depth _ rest
  have hopen : bracketDepth depth '<' = depth + 1 := by simp [bracketDepth]
  have hclose : bracketDepth (depth + 1) '>' = depth := by simp [bracketDepth]
  rw [List.cons_append, List.append_assoc, topLevelParts_cons (.inl (by decide)), hopen,
    h (depth + 1) (by omega), List.singleton_append, topLevelParts_cons (.inl (by decide)), hclose,
    List.modifyHead_modifyHead, List.modifyHead_modifyHead]
  congr 1
  funext part
  simp

theorem kept_intercalate {parts : List (List Char)} (h : ∀ part ∈ parts, Kept 0 part) :
    Kept 1 ([',', ' '].intercalate parts) := by
  have hcomma : Kept 1 [',', ' '] :=
    (kept_singleton (by decide) (by decide)).append (kept_singleton (by decide) (by decide))
  induction parts with
  | nil => exact kept_nil 1
  | cons part parts ih =>
    rw [List.forall_mem_cons] at h
    have hpart := h.1.mono (Nat.zero_le 1)
    cases parts with
    | nil => rwa [List.intercalate_singleton]
    | cons next parts =>
      rw [List.intercalate_cons_cons]
      exact (hpart.append hcomma).append (ih h.2)

/-! ## Arguments -/

/-- A text that stands for one argument: it is passed over as a whole and has no blanks at its
ends. -/
structure Whole (cs : List Char) : Prop where
  first : ∃ c, cs.head? = some c ∧ Text.isBlank c = false
  last : ∃ c, cs.getLast? = some c ∧ Text.isBlank c = false
  kept : Kept 0 cs

theorem Whole.trimChars {cs : List Char} (h : Whole cs) : Text.trimChars cs = cs :=
  Text.trimChars_of_ends h.first h.last

theorem Whole.ne_nil {cs : List Char} (h : Whole cs) : cs ≠ [] := by
  rintro rfl
  obtain ⟨c, hc, -⟩ := h.first
  cases hc

/-- Behind a comma a part begins with a blank. -/
theorem topLevelParts_intercalate {part : List Char} {parts : List (List Char)}
    (h : ∀ p ∈ part :: parts, Kept 0 p) :
    topLevelParts 0 ([',', ' '].intercalate (part :: parts)) = part :: parts.map (' ' :: ·) := by
  induction parts generalizing part with
  | nil =>
    have hpart := h part List.mem_cons_self 0 (Nat.le_refl 0) []
    simpa [topLevelParts] using hpart
  | cons next parts ih =>
    rw [List.forall_mem_cons] at h
    have hblank : Kept 0 [' '] := kept_singleton (by decide) (by decide)
    rw [List.intercalate_cons_cons, List.append_assoc, h.1 0 (Nat.le_refl 0), List.cons_append,
      topLevelParts_comma, hblank 0 (Nat.le_refl 0), ih h.2]
    simp

/-- **Arguments that are written one after the other are found again.** -/
theorem argumentTexts_intercalate {parts : List (List Char)} (h : ∀ part ∈ parts, Whole part) :
    argumentTexts ([',', ' '].intercalate parts) = parts := by
  cases parts with
  | nil => rfl
  | cons part parts =>
    have htrim : ∀ p ∈ parts, Text.trimChars (' ' :: p) = p := by
      intro p hp
      rw [Text.trimChars_cons (by decide), (h p (List.mem_cons_of_mem _ hp)).trimChars]
    rw [argumentTexts, topLevelParts_intercalate fun p hp => (h p hp).kept, List.map_cons,
      List.map_map, (h part List.mem_cons_self).trimChars]
    have hmap : parts.map (Text.trimChars ∘ (' ' :: ·)) = parts := by
      conv => rhs; rw [← List.map_id parts]
      exact List.map_congr_left htrim
    rw [hmap]
    exact List.filter_eq_self.mpr fun p hp => decide_eq_true (h p hp).ne_nil

/-! ## Brackets -/

/-- The name ends before the first angle bracket and the arguments end before the last one. -/
theorem splitArguments?_eq_some_iff {text base inside : List Char} :
    splitArguments? text = some (base, inside) ↔
      text = base ++ '<' :: (inside ++ ['>']) ∧ '<' ∉ base := by
  constructor
  · intro h
    unfold splitArguments? at h
    split at h
    · rename_i hcond
      simp only [Option.some.injEq, Prod.mk.injEq] at h
      obtain ⟨rfl, rfl⟩ := h
      obtain ⟨before, after, rfl, hbefore⟩ := List.eq_append_cons_of_mem hcond.2
      have hafter : after.getLast? = some '>' := by
        cases after with
        | nil => simp at hcond
        | cons c after => simpa using hcond.1
      obtain ⟨inside, rfl⟩ := List.getLast?_eq_some_iff.mp hafter
      rw [Text.takeWhile_ne hbefore, Text.dropWhile_ne hbefore]
      simp [hbefore]
    · cases h
  · rintro ⟨rfl, hbase⟩
    have hlast : (base ++ '<' :: (inside ++ ['>'])).getLast? = some '>' := by
      simp [List.getLast?_append, List.getLast?_cons]
    rw [splitArguments?, if_pos ⟨hlast, by simp⟩, Text.takeWhile_ne hbase, Text.dropWhile_ne hbase]
    simp

theorem splitArguments?_eq_none_iff {text : List Char} :
    splitArguments? text = none ↔ '<' ∉ text ∨ text.getLast? ≠ some '>' := by
  unfold splitArguments?
  split
  · simp_all
  · rename_i hcond
    simp only [true_iff]
    tauto

theorem typeOfChars_of_none {cs : List Char} (h : splitArguments? (Text.trimChars cs) = none) :
    typeOfChars cs = .named (String.ofList (Text.trimChars cs)) := by
  rw [typeOfChars]
  split
  · rfl
  · simp_all

theorem typeOfChars_of_some {cs base inside : List Char}
    (h : splitArguments? (Text.trimChars cs) = some (base, inside)) :
    typeOfChars cs =
      genericType (Text.trimChars base) ((argumentTexts inside).map typeOfChars) := by
  rw [typeOfChars]
  split
  · simp_all
  · rename_i hsome
    rw [h] at hsome
    simp only [Option.some.injEq, Prod.mk.injEq] at hsome
    obtain ⟨rfl, rfl⟩ := hsome
    simp

/-! ## Names and marks -/

theorem whole_of_isPlainName {name : String} (h : isPlainName name = true) :
    Whole name.toList ∧ '<' ∉ name.toList := by
  simp only [isPlainName, Bool.and_eq_true, Option.any_eq_true, List.all_eq_true,
    Bool.not_eq_true'] at h
  obtain ⟨⟨hfirst, hlast⟩, hfree⟩ := h
  have hnone : ∀ c ∈ name.toList, c ∉ ['<', '>', '(', ')', ','] := by
    intro c hc hmem
    have hcontains := hfree c hc
    rw [List.contains_iff_mem.mpr hmem] at hcontains
    cases hcontains
  refine ⟨⟨hfirst, hlast, kept_of_forall fun c hc => kept_singleton ?_ ?_⟩, fun hmem => ?_⟩
  · intro hbracket
    exact hnone c hc (List.mem_append_left [','] hbracket)
  · rintro rfl
    exact absurd (by simp) (hnone ',' hc)
  · exact absurd (by simp) (hnone '<' hmem)

/-- The last scope of a name is in a table just if the name ends in an entry of the table. -/
theorem contains_lastScope_iff {table : List String}
    (htable : ∀ segment ∈ table, ':' ∉ segment.toList) (name : String) :
    table.contains (String.ofList (lastScope name.toList)) = true ↔ EndsIn table name := by
  rw [List.contains_iff_mem]
  constructor
  · intro h
    refine ⟨_, h, ?_⟩
    rw [lastScope, Text.afterLast]
    cases hcut : Text.splitLast? [':', ':'] name.toList with
    | none => exact .inl (by simp)
    | some parts =>
      obtain ⟨scope, segment⟩ := parts
      refine .inr ⟨String.ofList scope, String.toList_inj.mp ?_⟩
      rw [Text.splitLast?_append hcut]
      simp [toList_colons]
  · rintro ⟨segment, hsegment, rfl | ⟨scope, rfl⟩⟩
    · have hnone := not_colons_of_not_mem (htable name hsegment)
      rw [lastScope_of_not_colons fun h => hnone (h.trans (List.suffix_cons _ _).isInfix)]
      simpa using hsegment
    · have hname : (scope ++ "::" ++ segment).toList =
          scope.toList ++ ':' :: ':' :: segment.toList := by simp [toList_colons]
      rw [hname, lastScope_append _ (not_colons_of_not_mem (htable segment hsegment))]
      simpa using hsegment

theorem marked_named (name : String) : Marked (.named name) :=
  .intro (by simp [named]) (by simp [named]) (fun a ha => by simp [named] at ha)

theorem marked_genericType {name : String} {arguments : List TypeRef} (hne : arguments ≠ [])
    (h : ∀ a ∈ arguments, Marked a) : Marked (genericType name.toList arguments) := by
  have hcollection : ∀ segment ∈ collectionNames, ':' ∉ segment.toList := by decide +kernel
  have hmap : ∀ segment ∈ mapNames, ':' ∉ segment.toList := by decide +kernel
  refine .intro ?_ ?_ h
  · simp only [genericType, contains_lastScope_iff hcollection, String.ofList_toList, hne, ne_eq,
      not_false_eq_true, true_and]
  · simp only [genericType, contains_lastScope_iff hmap, String.ofList_toList, hne, ne_eq,
      not_false_eq_true, true_and]

/-! ## Reading what was written -/

theorem whole_display {t : TypeRef} (h : Plain t) : Whole t.display.toList := by
  induction h with
  | @intro t hname hdimensions hvarargs _ ih =>
    have hwhole := (whole_of_isPlainName hname).1
    rw [toList_display hdimensions hvarargs, argumentChars]
    split
    · rwa [List.append_nil]
    · obtain ⟨c, hc, hfirst⟩ := hwhole.first
      have hinside :
          Kept 1 ([',', ' '].intercalate (t.arguments.map fun a => a.display.toList)) := by
        refine kept_intercalate fun part hpart => ?_
        obtain ⟨a, ha, rfl⟩ := List.mem_map.mp hpart
        exact (ih a ha).kept
      refine ⟨⟨c, by simp [hc], hfirst⟩, ⟨'>', ?_, by decide⟩, hwhole.kept.append hinside.enclose⟩
      simp [List.getLast?_append, List.getLast?_cons]

/-- What is written for a plain type is read as this type. -/
theorem typeOfChars_display {t : TypeRef} (h : Plain t) :
    (typeOfChars t.display.toList == t) = true ∧ Marked (typeOfChars t.display.toList) := by
  induction h with
  | @intro t hname hdimensions hvarargs harguments ih =>
    obtain ⟨hwhole, hopen⟩ := whole_of_isPlainName hname
    have htrim : Text.trimChars t.display.toList = t.display.toList :=
      (whole_display (.intro hname hdimensions hvarargs harguments)).trimChars
    by_cases hnil : t.arguments = []
    · have htext : t.display.toList = t.name.toList := by
        simp [toList_display hdimensions hvarargs, hnil, argumentChars]
      rw [htext] at htrim ⊢
      rw [typeOfChars_of_none (by rw [htrim, splitArguments?_eq_none_iff]; exact .inl hopen), htrim,
        String.ofList_toList]
      refine ⟨beq_iff.mpr ⟨rfl, ?_, hdimensions.symm, hvarargs.symm⟩, marked_named t.name⟩
      rw [hnil]
      exact .nil
    · have htexts : ∀ part ∈ t.arguments.map fun a => a.display.toList, Whole part := by
        intro part hpart
        obtain ⟨a, ha, rfl⟩ := List.mem_map.mp hpart
        exact whole_display (harguments a ha)
      have hcut : splitArguments? (Text.trimChars t.display.toList) = some (t.name.toList,
          [',', ' '].intercalate (t.arguments.map fun a => a.display.toList)) := by
        rw [htrim, splitArguments?_eq_some_iff]
        refine ⟨?_, hopen⟩
        rw [toList_display hdimensions hvarargs, argumentChars, if_neg (by simpa using hnil)]
      rw [typeOfChars_of_some hcut, hwhole.trimChars, argumentTexts_intercalate htexts,
        List.map_map]
      refine ⟨beq_iff.mpr ⟨?_, ?_, hdimensions.symm, hvarargs.symm⟩, ?_⟩
      · simp [genericType]
      · show List.Forall₂ _ (t.arguments.map _) t.arguments
        rw [List.forall₂_map_left_iff, List.forall₂_same]
        exact fun a ha => (ih a ha).1
      · refine marked_genericType (by simpa using hnil) fun a ha => ?_
        obtain ⟨b, hb, rfl⟩ := List.mem_map.mp ha
        exact (ih b hb).2

/-! ## Reading any text -/

/-- The cuts that part a text into a name and what is between its brackets: all lie between two
characters, and in this order. -/
structure Cuts (text base inside : List Char) : Prop where
  opening : Text.splitAtByte? (Text.byteLength base) text = some (base, '<' :: (inside ++ ['>']))
  behind : Text.splitAtByte? (Text.byteLength base + 1) text =
    some (base ++ ['<'], inside ++ ['>'])
  closing : Text.splitAtByte? (Text.byteLength text - 1) text = some (base ++ '<' :: inside, ['>'])
  ordered : Text.byteLength base + 1 ≤ Text.byteLength text - 1

theorem cuts_append (base inside : List Char) :
    Cuts (base ++ '<' :: (inside ++ ['>'])) base inside := by
  have hone : Text.byteLength ['<'] = 1 ∧ Text.byteLength ['>'] = 1 := by decide
  have hbehind : Text.byteLength base + 1 = Text.byteLength (base ++ ['<']) := by
    rw [Text.byteLength_append, hone.1]
  have hclosing : Text.byteLength (base ++ '<' :: (inside ++ ['>'])) - 1 =
      Text.byteLength (base ++ '<' :: inside) := by
    rw [← List.cons_append, ← List.append_assoc, Text.byteLength_append _ ['>'], hone.2]
    rfl
  refine ⟨Text.splitAtByte?_byteLength _ _, ?_, ?_, ?_⟩
  · have hsplit := Text.splitAtByte?_byteLength (base ++ ['<']) (inside ++ ['>'])
    rwa [List.append_assoc, ← hbehind] at hsplit
  · have hsplit := Text.splitAtByte?_byteLength (base ++ '<' :: inside) ['>']
    rwa [List.append_assoc, ← hclosing] at hsplit
  · have hinside : base ++ '<' :: inside = base ++ ['<'] ++ inside := by simp
    rw [hclosing, hbehind, hinside, Text.byteLength_append (base ++ ['<'])]
    exact Nat.le_add_right _ _

/-- How a text is read: as a name, or as a name and the types between its brackets. The parts
between the brackets lie one comma apart, and what is read again is shorter. -/
inductive Reading : List Char → TypeRef → Prop
  | name {cs : List Char}
      (h : '<' ∉ Text.trimChars cs ∨ (Text.trimChars cs).getLast? ≠ some '>') :
    Reading cs (.named (String.ofList (Text.trimChars cs)))
  | generic {cs base inside : List Char} {arguments : List TypeRef}
      (hcuts : Cuts (Text.trimChars cs) base inside) (hbase : '<' ∉ base)
      (hparts : [','].intercalate (topLevelParts 0 inside) = inside)
      (hshorter : ∀ part ∈ argumentTexts inside, part.length < cs.length)
      (harguments : List.Forall₂ Reading (argumentTexts inside) arguments) :
    Reading cs (genericType (Text.trimChars base) arguments)

theorem reading_typeOfChars (cs : List Char) : Reading cs (typeOfChars cs) := by
  induction hlength : cs.length using Nat.strongRecOn generalizing cs with
  | ind n ih =>
    subst hlength
    cases hsplit : splitArguments? (Text.trimChars cs) with
    | none =>
      rw [typeOfChars_of_none hsplit]
      exact .name (splitArguments?_eq_none_iff.mp hsplit)
    | some parts =>
      obtain ⟨base, inside⟩ := parts
      obtain ⟨htext, hbase⟩ := splitArguments?_eq_some_iff.mp hsplit
      have hshorter : ∀ part ∈ argumentTexts inside, part.length < cs.length := by
        intro part hpart
        have hpart := length_argumentTexts_le hpart
        have hinside := length_splitArguments? hsplit
        have htrim := length_trimChars_le cs
        omega
      rw [typeOfChars_of_some hsplit]
      refine .generic ?_ hbase (intercalate_topLevelParts 0 inside) hshorter ?_
      · rw [htext]
        exact cuts_append base inside
      · rw [List.forall₂_map_right_iff, List.forall₂_same]
        exact fun part hpart => ih part.length (hshorter part hpart) part rfl

/-- **Plain types are read as they were written**, with the marks that their names call for at
every level, and every text at all can be read. -/
theorem typeOfText_inverts_display :
    (∀ t : TypeRef, Plain t →
      (typeOfText t.display == t) = true ∧ Marked (typeOfText t.display)) ∧
    ∀ text : String, Reading text.toList (typeOfText text) :=
  ⟨fun _ h => typeOfChars_display h, fun text => reading_typeOfChars text.toList⟩

/-- A map from texts to lists of pairs, without any marks. -/
def pairLists : TypeRef :=
  { name := "std::map"
    arguments :=
      [.named "std::string",
        { name := "std::vector"
          arguments :=
            [{ name := "std::pair", arguments := [.named "unsigned int", .named "T"] }] }] }

theorem typeOfText_inverts_display_pairLists :
    pairLists.display = "std::map<std::string, std::vector<std::pair<unsigned int, T>>>" ∧
      Plain pairLists ∧ (typeOfText pairLists.display == pairLists) = true ∧
      Marked (typeOfText pairLists.display) ∧ Reading ">a<,".toList (typeOfText ">a<,") := by
  have hleaf : ∀ name, isPlainName name = true → Plain (.named name) := fun name h =>
    .intro h rfl rfl (by simp [named])
  have hplain : Plain pairLists := by
    refine .intro (by decide +kernel) rfl rfl ?_
    simp only [pairLists, List.forall_mem_cons]
    refine ⟨hleaf _ (by decide +kernel), .intro (by decide +kernel) rfl rfl ?_, by simp⟩
    simp only [List.forall_mem_cons]
    refine ⟨.intro (by decide +kernel) rfl rfl ?_, by simp⟩
    simp only [List.forall_mem_cons]
    exact ⟨hleaf _ (by decide +kernel), hleaf _ (by decide +kernel), by simp⟩
  obtain ⟨hinverts, hreads⟩ := typeOfText_inverts_display
  exact ⟨by decide +kernel, hplain, (hinverts _ hplain).1, (hinverts _ hplain).2, hreads ">a<,"⟩

end Extract

end Refactor
