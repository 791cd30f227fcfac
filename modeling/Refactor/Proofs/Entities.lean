import Mathlib.Data.List.Infix
import Refactor.Report.Html

/-!
# Escaped texts can be read back

**Theorem (`escape_lossless`).** Putting in the entities one after the other writes each character
of the text on its own, five of them as their entities. Reading the entities from left to right
gives the text again, so different texts are never escaped to the same.

What makes one pass of several is the order of the table: no entity contains a character that is
replaced after it (`foldl_replaceChar`). The ampersand stands in every entity, hence it has to come
first. Reading needs two more facts about the table: every entity starts with an ampersand, which is
never written otherwise, and no entity starts with another one (`entities_apart`).
-/

namespace Refactor.Report.Html

/-! ## One pass -/

/-- What a table of entities writes for a character. The first entity of a character counts. -/
def written : List (Char × String) → Char → List Char
  | [], c => [c]
  | entity :: table, c => if c = entity.1 then entity.2.toList else written table c

theorem written_cases (table : List (Char × String)) (c : Char) :
    (∃ entity ∈ table, entity.1 = c ∧ written table c = entity.2.toList) ∨
      (∀ entity ∈ table, entity.1 ≠ c) ∧ written table c = [c] := by
  induction table with
  | nil => exact .inr ⟨by simp, rfl⟩
  | cons entity table ih =>
    by_cases h : c = entity.1
    · exact .inl ⟨entity, List.mem_cons_self, h.symm, if_pos h⟩
    · rw [written, if_neg h]
      rcases ih with ⟨other, hother, hc⟩ | ⟨hnone, hc⟩
      · exact .inl ⟨other, List.mem_cons_of_mem _ hother, hc⟩
      · exact .inr ⟨List.forall_mem_cons.mpr ⟨Ne.symm h, hnone⟩, hc⟩

/-- A text without characters of the table stands as it is. -/
theorem flatMap_written_of_disjoint {table : List (Char × String)} {cs : List Char}
    (h : ∀ entity ∈ table, entity.1 ∉ cs) : cs.flatMap (written table) = cs := by
  have hplain : ∀ c ∈ cs, written table c = [c] := by
    intro c hc
    rcases written_cases table c with ⟨entity, hentity, rfl, -⟩ | ⟨-, hc⟩
    · exact absurd hc (h entity hentity)
    · exact hc
  rw [List.flatMap_congr hplain, List.flatMap_singleton']

/-- **One replacement after the other is a single pass**, if no entity contains a character that is
replaced later. -/
theorem foldl_replaceChar {table : List (Char × String)}
    (h : table.Pairwise fun entity later => later.1 ∉ entity.2.toList) (cs : List Char) :
    table.foldl (fun text entity => replaceChar entity text) cs = cs.flatMap (written table) := by
  induction table generalizing cs with
  | nil => exact (List.flatMap_singleton' cs).symm
  | cons entity table ih =>
    obtain ⟨hentity, htable⟩ := List.pairwise_cons.mp h
    rw [List.foldl_cons, ih htable, replaceChar, List.flatMap_assoc]
    refine List.flatMap_congr fun c _ => ?_
    rw [written]
    split
    -- What this entity puts in passes all later replacements.
    · exact flatMap_written_of_disjoint hentity
    · rw [List.flatMap_singleton]

/-- How a character is written in a document: five have an entity, all others stand for
themselves. -/
def writtenChar (c : Char) : List Char :=
  if c = '&' then "&amp;".toList
  else if c = '<' then "&lt;".toList
  else if c = '>' then "&gt;".toList
  else if c = '"' then "&quot;".toList
  else if c = '\x27' then "&#39;".toList
  else [c]

theorem written_entities (c : Char) : written entities c = writtenChar c := rfl

theorem escapeChars_eq_flatMap (cs : List Char) : escapeChars cs = cs.flatMap writtenChar := by
  rw [escapeChars, foldl_replaceChar (by decide)]
  rfl

example : escapeChars "&lt;".toList = "&amp;lt;".toList := by decide

/-! ## Reading entities -/

/-- The text that is meant, read from left to right: where an entity stands its character, and
everywhere else the character that stands there. -/
def decodeChars : List Char → List Char
  | [] => []
  | c :: rest =>
    match entities.find? fun entity => entity.2.toList.isPrefixOf (c :: rest) with
    | some entity => entity.1 :: decodeChars (rest.drop (entity.2.toList.length - 1))
    | none => c :: decodeChars rest
termination_by cs => cs.length
decreasing_by all_goals simp only [List.length_drop, List.length_cons]; omega

/-- The text that a content stands for. -/
def decode (text : String) : String :=
  String.ofList (decodeChars text.toList)

/-- Every entity starts with an ampersand. -/
theorem entities_start : ∀ entity ∈ entities, entity.2.toList.head? = some '&' := by
  decide

/-- No entity starts with another one. -/
theorem entities_apart : ∀ entity ∈ entities, ∀ other ∈ entities,
    other.2.toList <+: entity.2.toList →
      other.1 = entity.1 ∧ other.2.toList.length = entity.2.toList.length := by
  decide

theorem decodeChars_entity {entity : Char × String} (h : entity ∈ entities) (rest : List Char) :
    decodeChars (entity.2.toList ++ rest) = entity.1 :: decodeChars rest := by
  obtain ⟨tail, htext⟩ := List.head?_eq_some_iff.mp (entities_start entity h)
  obtain ⟨found, hfound⟩ : ∃ found, (entities.find? fun other =>
      other.2.toList.isPrefixOf ('&' :: (tail ++ rest))) = some found := by
    refine Option.isSome_iff_exists.mp (List.find?_isSome.mpr ⟨entity, h, ?_⟩)
    rw [List.isPrefixOf_iff_prefix, htext]
    exact List.prefix_append _ rest
  -- What is found is a prefix of the same text as the entity, so one of the two starts with the
  -- other.
  obtain ⟨hchar, hlength⟩ : found.1 = entity.1 ∧
      found.2.toList.length = entity.2.toList.length := by
    have hmem := List.mem_of_find?_eq_some hfound
    have hstarts : found.2.toList <+: entity.2.toList ++ rest := by
      rw [htext, ← List.isPrefixOf_iff_prefix]
      simpa using List.find?_some hfound
    rcases List.prefix_or_prefix_of_prefix hstarts (List.prefix_append _ rest) with hle | hle
    · exact entities_apart entity h found hmem hle
    · obtain ⟨hchar, hlength⟩ := entities_apart found hmem entity h hle
      exact ⟨hchar.symm, hlength.symm⟩
  rw [htext, List.cons_append, decodeChars, hfound]
  simp only [hchar, hlength, htext, List.length_cons, Nat.add_sub_cancel, List.drop_left]

theorem decodeChars_plain {c : Char} (h : c ≠ '&') (rest : List Char) :
    decodeChars (c :: rest) = c :: decodeChars rest := by
  have hnone : (entities.find? fun entity => entity.2.toList.isPrefixOf (c :: rest)) = none := by
    refine List.find?_eq_none.mpr fun entity hentity hstarts => h ?_
    obtain ⟨tail, htext⟩ := List.head?_eq_some_iff.mp (entities_start entity hentity)
    rw [htext, List.isPrefixOf_iff_prefix, List.cons_prefix_cons] at hstarts
    exact hstarts.1.symm
  rw [decodeChars, hnone]

theorem decodeChars_written (c : Char) (rest : List Char) :
    decodeChars (writtenChar c ++ rest) = c :: decodeChars rest := by
  rw [← written_entities]
  rcases written_cases entities c with ⟨entity, hentity, rfl, hc⟩ | ⟨hnone, hc⟩
  · rw [hc, decodeChars_entity hentity]
  · rw [hc, List.singleton_append,
      decodeChars_plain (Ne.symm (hnone ('&', "&amp;") List.mem_cons_self))]

theorem decodeChars_escapeChars (cs : List Char) : decodeChars (escapeChars cs) = cs := by
  rw [escapeChars_eq_flatMap]
  induction cs with
  | nil => rw [List.flatMap_nil, decodeChars]
  | cons c cs ih => rw [List.flatMap_cons, decodeChars_written, ih]

/-- **Escaping loses nothing.** It is one pass over the characters, the texts can be read back, and
no two of them are escaped to the same. -/
theorem escape_lossless :
    (∀ text : String, escape text = String.ofList (text.toList.flatMap writtenChar)) ∧
      (∀ text : String, decode (escape text) = text) ∧ Function.Injective escape := by
  have hdecode : ∀ text : String, decode (escape text) = text := by
    intro text
    rw [decode, escape, String.toList_ofList, decodeChars_escapeChars, String.ofList_toList]
  refine ⟨fun text => ?_, hdecode, Function.LeftInverse.injective hdecode⟩
  rw [escape, escapeChars_eq_flatMap]

end Refactor.Report.Html
