import Mathlib.Data.List.TakeWhile
import Refactor.Extract.TypeText
import Refactor.Proofs.TextCuts
import Refactor.Proofs.WholeWords

/-!
# Owners of members

A member that is defined outside of its class is written behind the scopes that lead to it, with
two colons after each. The last of them is its owner, without the arguments that may be written
behind the owner's name.

Reading cuts twice at the last colons, once before the member and once before the owner, and then
takes the owner up to the first angle bracket. The second cut does not heed brackets. So the owner
is right if there are no colons between its brackets; otherwise what is read is the last name in
the brackets.

**Theorem (`splitQualified_owner`).** Without arguments, and with arguments in which no colons
stand, the owner and the member are those that were written. With colons in the arguments, whatever
stands before the last of them is lost, and the owner is right only if the argument's own name,
followed by arguments of its own, happens to be the owner's.

So `Box<std::string>::get` is taken for a member of `string>` (`argument_taken_for_owner`).
-/

namespace Refactor.Extract

/-! ## Colons -/

theorem toList_colons : "::".toList = [':', ':'] := rfl

/-- Two colons stand on one side of any other character. -/
theorem colons_infix_append {c : Char} (hc : c ≠ ':') (left right : List Char) :
    [':', ':'] <:+: left ++ c :: right ↔ [':', ':'] <:+: left ∨ [':', ':'] <:+: right := by
  constructor
  · intro h
    rcases List.infix_append_iff.mp h with h | h | ⟨front, back, heq, hfront, hback⟩
    · exact .inl h
    · rcases List.infix_cons_iff.mp h with ⟨rest, hrest⟩ | h
      · exact absurd (List.cons.inj hrest).1.symm hc
      · exact .inr h
    · cases back with
      | nil =>
        rw [List.append_nil] at heq
        exact .inl (heq ▸ hfront.isInfix)
      | cons d back =>
        obtain ⟨rest, hrest⟩ := hback
        obtain rfl := (List.cons.inj hrest).1
        have hmem : d ∈ [':', ':'] := heq ▸ List.mem_append_right front List.mem_cons_self
        exact absurd (by simpa using hmem) hc
  · rintro (h | h)
    · exact h.trans (List.prefix_append _ _).isInfix
    · exact h.trans ((List.suffix_cons _ _).trans (List.suffix_append _ _)).isInfix

theorem not_colons_of_not_mem {cs : List Char} (h : ':' ∉ cs) : ¬ [':', ':'] <:+: ':' :: cs := by
  intro hcolons
  rcases List.infix_cons_iff.mp hcolons with ⟨rest, hrest⟩ | hcolons
  · obtain ⟨-, hrest⟩ := List.cons.inj hrest
    exact h (hrest ▸ List.mem_cons_self)
  · exact h (hcolons.subset List.mem_cons_self)

theorem lastScope_of_not_colons {cs : List Char} (h : ¬ [':', ':'] <:+: cs) :
    lastScope cs = cs := by
  rw [lastScope, Text.afterLast, (Text.splitLast?_eq_none_iff (by simp)).mpr h]

theorem lastScope_append (before : List Char) {after : List Char}
    (h : ¬ [':', ':'] <:+: ':' :: after) : lastScope (before ++ ':' :: ':' :: after) = after := by
  have hcut : Text.splitLast? [':', ':'] (before ++ ':' :: ':' :: after) = some (before, after) :=
    (Text.splitLast?_eq_some_iff (by simp)).mpr ⟨rfl, h⟩
  rw [lastScope, Text.afterLast, hcut]

/-! ## Names -/

/-- A name that can stand between colons: not empty, without blanks, colons and angle brackets. -/
structure ScopeName (name : String) : Prop where
  ne_nil : name.toList ≠ []
  colon : ':' ∉ name.toList
  opening : '<' ∉ name.toList
  closing : '>' ∉ name.toList
  blank : ∀ c ∈ name.toList, Text.isBlank c = false

/-- Identifiers are such names. -/
theorem scopeName_of_isWord {name : String} (h : Statement.IsWord name.toList) :
    ScopeName name where
  ne_nil := h.1
  colon := fun hmem => absurd (h.2 ':' hmem) (by decide)
  opening := fun hmem => absurd (h.2 '<' hmem) (by decide)
  closing := fun hmem => absurd (h.2 '>' hmem) (by decide)
  blank := fun c hc => Text.isBlank_eq_false (h.2 c hc)

theorem ScopeName.trimChars {name : String} (h : ScopeName name) :
    Text.trimChars name.toList = name.toList := by
  refine Text.trimChars_of_ends ?_ ?_
  · exact ⟨_, List.head?_eq_some_head h.ne_nil, h.blank _ (List.head_mem h.ne_nil)⟩
  · exact ⟨_, List.getLast?_eq_some_getLast h.ne_nil, h.blank _ (List.getLast_mem h.ne_nil)⟩

/-! ## The owner in a scope -/

/-- The owner that the last scope names. -/
def ownerIn (scope : List Char) : Option String :=
  let owner := Text.trimChars (scope.takeWhile (· ≠ '<'))
  if owner = [] then none else some (String.ofList owner)

theorem ownerIn_eq_some_iff {scope : List Char} {owner : String} (hne : owner.toList ≠ []) :
    ownerIn scope = some owner ↔ Text.trimChars (scope.takeWhile (· ≠ '<')) = owner.toList := by
  unfold ownerIn
  dsimp only
  constructor
  · intro h
    split at h
    · cases h
    · rw [← Option.some.inj h, String.toList_ofList]
  · intro h
    rw [h, if_neg hne, String.ofList_toList]

theorem takeWhile_ne_of_not_mem {c : Char} {cs : List Char} (h : c ∉ cs) :
    cs.takeWhile (· ≠ c) = cs :=
  List.takeWhile_eq_self_iff.mpr fun _ hd => decide_eq_true fun heq => h (heq ▸ hd)

theorem ScopeName.ownerIn_toList {owner : String} (h : ScopeName owner) :
    ownerIn owner.toList = some owner := by
  rw [ownerIn_eq_some_iff h.ne_nil, takeWhile_ne_of_not_mem h.opening, h.trimChars]

/-- Arguments behind the name of the owner are left out. -/
theorem ScopeName.ownerIn_append {owner : String} (h : ScopeName owner) (rest : List Char) :
    ownerIn (owner.toList ++ '<' :: rest) = some owner := by
  rw [ownerIn_eq_some_iff h.ne_nil, Text.takeWhile_ne h.opening, h.trimChars]

/-- Where an argument is cut open, its name is taken for the owner. -/
theorem ScopeName.ownerIn_argument_iff {owner : String} (h : ScopeName owner)
    (argument : List Char) :
    ownerIn (argument ++ ['>']) = some owner ↔
      ∃ name rest, argument = name ++ '<' :: rest ∧ '<' ∉ name ∧
        Text.trimChars name = owner.toList := by
  rw [ownerIn_eq_some_iff h.ne_nil]
  constructor
  · intro howner
    by_cases hopen : '<' ∈ argument
    · obtain ⟨name, rest, rfl, hname⟩ := List.eq_append_cons_of_mem hopen
      rw [List.append_assoc, List.cons_append, Text.takeWhile_ne hname] at howner
      exact ⟨name, rest, rfl, hname, howner⟩
    · -- Without a bracket that opens, the one that closes becomes part of the name.
      rw [takeWhile_ne_of_not_mem (by simpa using hopen)] at howner
      have hclose : '>' ∈ Text.trimChars (argument ++ ['>']) :=
        Text.mem_trimChars (by decide) (by simp)
      exact absurd (howner ▸ hclose) h.closing
  · rintro ⟨name, rest, rfl, hname, howner⟩
    rw [List.append_assoc, List.cons_append, Text.takeWhile_ne hname, howner]

/-! ## Members behind scopes -/

/-- A member of an owner behind scopes, as it is written. -/
def memberText (scopes : List String) (owner member : String) : String :=
  String.join (scopes.map (· ++ "::")) ++ owner ++ "::" ++ member

/-- The scopes with the colons after each. -/
def scopeChars (scopes : List String) : List Char :=
  scopes.flatMap fun scope => scope.toList ++ [':', ':']

theorem toList_memberText (scopes : List String) (owner member : String) :
    (memberText scopes owner member).toList =
      scopeChars scopes ++ owner.toList ++ ':' :: ':' :: member.toList := by
  simp [memberText, scopeChars, String.toList_join, List.flatMap_map, toList_colons]

/-- Behind scopes, the last one is what is written last. -/
theorem lastScope_scopeChars (scopes : List String) {last : List Char}
    (h : ¬ [':', ':'] <:+: ':' :: last) : lastScope (scopeChars scopes ++ last) = last := by
  rcases List.eq_nil_or_concat' scopes with rfl | ⟨scopes, scope, rfl⟩
  · refine lastScope_of_not_colons fun hcolons => h ?_
    exact hcolons.trans (List.suffix_cons ':' last).isInfix
  · have hsplit : scopeChars (scopes ++ [scope]) ++ last =
        (scopeChars scopes ++ scope.toList) ++ ':' :: ':' :: last := by simp [scopeChars]
    rw [hsplit, lastScope_append _ h]

theorem splitQualified_memberText (scopes : List String) (owner : String) {member : String}
    (hmember : ScopeName member) : splitQualified (memberText scopes owner member) =
      (ownerIn (lastScope (scopeChars scopes ++ owner.toList)), member) := by
  have hcut : Text.splitLast? [':', ':'] (memberText scopes owner member).toList =
      some (scopeChars scopes ++ owner.toList, member.toList) :=
    (Text.splitLast?_eq_some_iff (by simp)).mpr
      ⟨toList_memberText scopes owner member, not_colons_of_not_mem hmember.colon⟩
  unfold splitQualified
  rw [hcut]
  dsimp only
  rw [hmember.trimChars, String.ofList_toList]
  rfl

/-- **The owner is right as long as its arguments have no colons.** With colons in the arguments,
all that stands before the last of them is lost, and what is taken for the owner is the name behind
them. The member is right in any case. -/
theorem splitQualified_owner (scopes : List String) {owner member : String}
    (howner : ScopeName owner) (hmember : ScopeName member) (arguments : String) :
    splitQualified (memberText scopes owner member) = (some owner, member) ∧
    (¬ [':', ':'] <:+: arguments.toList →
      splitQualified (memberText scopes (owner ++ "<" ++ arguments ++ ">") member) =
        (some owner, member)) ∧
    ∀ before after, arguments.toList = before ++ ':' :: ':' :: after →
      ¬ [':', ':'] <:+: ':' :: after →
      (splitQualified (memberText scopes (owner ++ "<" ++ arguments ++ ">") member)).2 = member ∧
      splitQualified (memberText scopes (owner ++ "<" ++ arguments ++ ">") member) =
        splitQualified (memberText [] (String.ofList after ++ ">") member) ∧
      (splitQualified (memberText scopes (owner ++ "<" ++ arguments ++ ">") member) =
          (some owner, member) ↔
        ∃ name rest, after = name ++ '<' :: rest ∧ '<' ∉ name ∧
          Text.trimChars name = owner.toList) := by
  have hopen : "<".toList = ['<'] := rfl
  have hclose : ">".toList = ['>'] := rfl
  have hwritten : (owner ++ "<" ++ arguments ++ ">").toList =
      owner.toList ++ '<' :: (arguments.toList ++ ['>']) := by
    simp [hopen, hclose]
  refine ⟨?_, fun hcolons => ?_, fun before after hsplit hlast => ?_⟩
  · rw [splitQualified_memberText scopes owner hmember,
      lastScope_scopeChars scopes (not_colons_of_not_mem howner.colon), howner.ownerIn_toList]
  · have hnone : ¬ [':', ':'] <:+: ':' :: (owner.toList ++ '<' :: (arguments.toList ++ ['>'])) := by
      rw [← List.cons_append, colons_infix_append (by decide), colons_infix_append (by decide)]
      have hname := not_colons_of_not_mem howner.colon
      simp [hname, hcolons]
    rw [splitQualified_memberText scopes _ hmember, hwritten, lastScope_scopeChars scopes hnone,
      howner.ownerIn_append]
  · have hnone : ¬ [':', ':'] <:+: ':' :: (after ++ ['>']) := by
      rw [← List.cons_append, colons_infix_append (by decide)]
      simp [hlast]
    have hcut : scopeChars scopes ++ (owner ++ "<" ++ arguments ++ ">").toList =
        (scopeChars scopes ++ owner.toList ++ '<' :: before) ++ ':' :: ':' :: (after ++ ['>']) := by
      simp [hwritten, hsplit]
    have hread : splitQualified (memberText scopes (owner ++ "<" ++ arguments ++ ">") member) =
        (ownerIn (after ++ ['>']), member) := by
      rw [splitQualified_memberText scopes _ hmember, hcut, lastScope_append _ hnone]
    have hrest : splitQualified (memberText [] (String.ofList after ++ ">") member) =
        (ownerIn (after ++ ['>']), member) := by
      rw [splitQualified_memberText [] _ hmember, String.toList_append, String.toList_ofList,
        hclose, lastScope_scopeChars [] hnone]
    rw [hread, hrest, ← howner.ownerIn_argument_iff]
    simp

theorem scopeName_box_get : ScopeName "Box" ∧ ScopeName "get" :=
  ⟨scopeName_of_isWord ⟨by decide +kernel, List.all_eq_true.mp (by decide +kernel)⟩,
    scopeName_of_isWord ⟨by decide +kernel, List.all_eq_true.mp (by decide +kernel)⟩⟩

/-- Nested arguments without colons are left out, and colons in an argument hide the owner. -/
theorem splitQualified_owner_box :
    ScopeName "Box" ∧ ScopeName "get" ∧ ¬ [':', ':'] <:+: "Pair<T, int>".toList ∧
      splitQualified (memberText ["store"] ("Box" ++ "<" ++ "Pair<T, int>" ++ ">") "get") =
        (some "Box", "get") ∧
      "std::string".toList = "std".toList ++ ':' :: ':' :: "string".toList ∧
      ¬ [':', ':'] <:+: ':' :: "string".toList ∧
      splitQualified (memberText ["store"] ("Box" ++ "<" ++ "std::string" ++ ">") "get") ≠
        (some "Box", "get") := by
  obtain ⟨howner, hmember⟩ := scopeName_box_get
  have hplain : ¬ [':', ':'] <:+: "Pair<T, int>".toList := by decide +kernel
  have hlast : ¬ [':', ':'] <:+: ':' :: "string".toList := by decide +kernel
  obtain ⟨-, hright, -⟩ := splitQualified_owner ["store"] howner hmember "Pair<T, int>"
  obtain ⟨-, -, hcolons⟩ := splitQualified_owner ["store"] howner hmember "std::string"
  refine ⟨howner, hmember, hplain, hright hplain, by decide +kernel, hlast, ?_⟩
  rw [Ne, (hcolons "std".toList "string".toList (by decide +kernel) hlast).2.2]
  rintro ⟨name, rest, hname, -, -⟩
  have hmem : '<' ∈ "string".toList := hname ▸ List.mem_append_right name List.mem_cons_self
  exact absurd hmem (by decide +kernel)

/-- The class of a specialised member is lost although its only argument has no brackets. -/
theorem argument_taken_for_owner :
    ScopeName "Box" ∧ ScopeName "get" ∧ '<' ∉ "std::string".toList ∧ '>' ∉ "std::string".toList ∧
      memberText [] ("Box" ++ "<" ++ "std::string" ++ ">") "get" = "Box<std::string>::get" ∧
      splitQualified "Box<std::string>::get" = (some "string>", "get") :=
  ⟨scopeName_box_get.1, scopeName_box_get.2, by decide +kernel, by decide +kernel,
    by decide +kernel, by decide +kernel⟩

end Refactor.Extract
