import Refactor.Proofs.Attachment
import Refactor.Proofs.Merging
import Refactor.Proofs.Provenance

/-!
# Reading a part of the files

Files are chosen by their paths. `Restricts keep m r` says that the classes and operations of `r`
are those of `m` that are located in chosen files, in the same order.

**Theorem (`restricts_gathered`).** It holds between the merged models of all files and of the
chosen ones: what a file brings in is located in it, and equal members have equal locations, so
nothing is left out on account of another file.

**Theorem (`Restricts.linkDefinitions`).** It still holds after linking, if every definition stands
on the same side as the first class of its class name. Otherwise a definition in one part may be
moved to a declaration in the other.
-/

namespace Refactor

/-! ## Lists without equals -/

section

variable {α : Type} [BEq α] {p : α → Bool}

theorem filter_appendNew (hp : ∀ a b : α, (a == b) = true → p a = p b) (items : List α) (a : α) :
    (appendNew items a).filter p =
      if p a = true then appendNew (items.filter p) a else items.filter p := by
  by_cases ha : p a = true
  · have hcontains : (items.filter p).contains a = items.contains a := by
      rw [Bool.eq_iff_iff, List.contains_iff_exists_mem_beq, List.contains_iff_exists_mem_beq]
      constructor
      · rintro ⟨b, hb, hsame⟩
        exact ⟨b, (List.mem_filter.mp hb).1, hsame⟩
      · rintro ⟨b, hb, hsame⟩
        exact ⟨b, List.mem_filter.mpr ⟨hb, (hp a b hsame) ▸ ha⟩, hsame⟩
    rw [if_pos ha, appendNew, appendNew, hcontains]
    split
    · rfl
    · rw [List.filter_append, List.filter_singleton, ha]
      rfl
  · rw [if_neg ha, appendNew]
    split
    · rfl
    · simp [List.filter_append, ha]

theorem filter_foldl_appendNew (hp : ∀ a b : α, (a == b) = true → p a = p b) (items more : List α) :
    (more.foldl appendNew items).filter p =
      (more.filter p).foldl appendNew (items.filter p) := by
  induction more generalizing items with
  | nil => rfl
  | cons a more ih =>
    rw [List.foldl_cons, ih, filter_appendNew hp, List.filter_cons]
    split <;> rfl

end

/-- Elements of a list of lists that a test tells from the others. -/
theorem filter_flatMap {α β : Type} {f : α → List β} {k : α → Bool} {q : β → Bool} {items : List α}
    (hin : ∀ a ∈ items, k a = true → ∀ b ∈ f a, q b = true)
    (hout : ∀ a ∈ items, k a = false → ∀ b ∈ f a, q b = false) :
    (items.flatMap f).filter q = (items.filter k).flatMap f := by
  induction items with
  | nil => rfl
  | cons a items ih =>
    rw [List.forall_mem_cons] at hin hout
    rw [List.flatMap_cons, List.filter_append, ih hin.2 hout.2, List.filter_cons]
    cases hk : k a with
    | true => rw [List.filter_eq_self.mpr (hin.1 hk), if_pos rfl, List.flatMap_cons]
    | false =>
      rw [List.filter_eq_nil_iff.mpr fun b hb => Bool.eq_false_iff.mp (hout.1 hk b hb),
        List.nil_append, if_neg Bool.false_ne_true]

/-- A class is located in a file that is kept. -/
def Class.isKept (keep : String → Bool) (c : Class) : Bool :=
  keep c.location.file

/-- An operation is located in a file that is kept. -/
def Operation.isKept (keep : String → Bool) (o : Operation) : Bool :=
  keep o.location.file

namespace CodeModel

/-- The classes and operations of `r` are those of `m` in files that are kept. -/
structure Restricts (keep : String → Bool) (m r : CodeModel) : Prop where
  classes : r.classes = m.classes.filter (Class.isKept keep)
  operations : r.operations = m.operations.filter (Operation.isKept keep)

section

variable {keep : String → Bool} {m r : CodeModel}

/-! ## Merging -/

theorem foldl_merge {m : CodeModel} (h : Sound m) (models : List CodeModel) :
    (models.foldl merge m).classes = (models.flatMap classes).foldl appendNew m.classes ∧
      (models.foldl merge m).operations =
        (models.flatMap operations).foldl appendNew m.operations := by
  induction models generalizing m with
  | nil => exact ⟨rfl, rfl⟩
  | cons other models ih =>
    obtain ⟨hsound, hcontents⟩ := merge_contents h other
    obtain ⟨hclasses, hoperations⟩ := ih hsound
    have hmergedClasses : (m.merge other).classes = other.classes.foldl appendNew m.classes :=
      congrArg Contents.classes hcontents
    have hmergedOperations :
        (m.merge other).operations = other.operations.foldl appendNew m.operations :=
      congrArg Contents.operations hcontents
    rw [List.foldl_cons, List.flatMap_cons, List.flatMap_cons, List.foldl_append,
      List.foldl_append, ← hmergedClasses, ← hmergedOperations]
    exact ⟨hclasses, hoperations⟩

/-! ## Linking -/

/-- A definition stands on the same side as the first class of its class name. -/
def LinksWithin (keep : String → Bool) (m : CodeModel) (o : Operation) : Prop :=
  ∀ className ∈ o.className, o.body.isSome = true →
    ∀ c ∈ m.class? className, c.isKept keep = o.isKept keep

instance (keep : String → Bool) (m : CodeModel) (o : Operation) :
    Decidable (LinksWithin keep m o) :=
  inferInstanceAs (Decidable (∀ className ∈ o.className, o.body.isSome = true →
    ∀ c ∈ m.class? className, c.isKept keep = o.isKept keep))

theorem LinksWithin.not {o : Operation} (h : LinksWithin keep m o) :
    LinksWithin (fun path => !keep path) m o := by
  intro className hclassName hbody c hc
  have hside := h className hclassName hbody c hc
  rw [Class.isKept, Operation.isKept] at hside ⊢
  rw [hside]

theorem LinksWithin.linkDefinition {o : Operation} (h : LinksWithin keep m o)
    (definition : Operation) : LinksWithin keep (m.linkDefinition definition) o := by
  intro className hclassName hbody c' hc'
  have hsame := map_class?_congr (fun identity => identity.2.1) (fun _ => rfl)
    (keeps_linkDefinition m definition).1.identities className
  rw [hc', Option.map_some] at hsame
  obtain ⟨c, hc, hidentity⟩ := Option.map_eq_some_iff.mp hsame.symm
  have hlocation : c.location = c'.location := congrArg (fun identity => identity.2.2) hidentity
  rw [← h className hclassName hbody c hc, Class.isKept, Class.isKept, hlocation]

/-- The first class of a name is still the first one if it is kept. -/
theorem Restricts.class? (h : Restricts keep m r) {name : String} {c : Class}
    (hc : m.class? name = some c) (hkeep : c.isKept keep = true) :
    r.class? name = some c := by
  obtain ⟨hname, before, after, hsplit, hbefore⟩ := List.find?_eq_some_iff_append.mp hc
  have hkept : r.classes = before.filter (Class.isKept keep) ++
      c :: after.filter (Class.isKept keep) := by
    rw [h.classes, hsplit, List.filter_append, List.filter_cons_of_pos hkeep]
  refine class?_of_split hkept ?_ (by simpa using hname)
  intro other hother
  simpa using hbefore other (List.mem_filter.mp hother).1

theorem Restricts.attach?_eq_none (h : Restricts keep m r) {o : Operation}
    (ho : LinksWithin keep m o) (hkeep : o.isKept keep = true)
    (hnone : m.attach? o = none) : r.attach? o = none := by
  rw [attach?_eq_none_iff] at hnone ⊢
  intro className hclassName hbody c hc
  -- A class of the name that is kept shows that there is one at all.
  have hmem : c ∈ m.classes := by
    have hkept : c ∈ r.classes := List.mem_of_find?_eq_some hc
    rw [h.classes] at hkept
    exact (List.mem_filter.mp hkept).1
  have hname : c.name = className := by simpa using List.find?_some hc
  obtain ⟨first, hfirst⟩ : ∃ first, m.class? className = some first := by
    rw [← Option.isSome_iff_exists, CodeModel.class?, List.find?_isSome]
    exact ⟨c, hmem, by simpa using hname⟩
  have hside := ho className hclassName hbody first hfirst
  have hrestricted := h.class? hfirst (hside.trans hkeep)
  obtain rfl := Option.some.inj (hrestricted.symm.trans hc)
  exact hnone className hclassName hbody first hfirst

/-- **One step of linking**, seen from one of the parts. -/
theorem Restricts.linkDefinition (h : Restricts keep m r) {o : Operation}
    (ho : LinksWithin keep m o) :
    Restricts keep (m.linkDefinition o)
      (if o.isKept keep = true then r.linkDefinition o else r) := by
  rcases linkDefinition_cases m o with hattached | ⟨hnone, hstays⟩
  · generalize m.linkDefinition o = m' at hattached
    cases hattached with
    | @fill className body before after c earlier later declared hclassName hbody hclasses hbefore
        hname hoperations hearlier hawaits =>
      have hside : c.isKept keep = o.isKept keep :=
        ho className hclassName (by rw [hbody]; rfl) c (class?_of_split hclasses hbefore hname)
      have hfilled : ∀ operations,
          ({ c with operations := operations } : Class).isKept keep = c.isKept keep := fun _ => rfl
      by_cases hkeep : o.isKept keep = true
      · have hkept : r.classes = before.filter (Class.isKept keep) ++
            c :: after.filter (Class.isKept keep) := by
          rw [h.classes, hclasses, List.filter_append, List.filter_cons_of_pos (hside.trans hkeep)]
        have hstill : ∀ other ∈ before.filter (Class.isKept keep),
            other.name ≠ className := fun other hother =>
          hbefore other (List.mem_filter.mp hother).1
        have hattach := (Attached.fill hclassName hbody hkept hstill hname hoperations hearlier
          hawaits).attach?_eq
        rw [if_pos hkeep, CodeModel.linkDefinition, hattach, Option.getD_some]
        refine ⟨?_, h.operations⟩
        dsimp only
        rw [List.filter_append, List.filter_cons, hfilled, if_pos (hside.trans hkeep)]
      · rw [if_neg hkeep]
        refine ⟨?_, h.operations⟩
        have hdropped : ¬ c.isKept keep = true := fun hc => hkeep (hside ▸ hc)
        rw [h.classes, hclasses, List.filter_append, List.filter_append,
          List.filter_cons_of_neg hdropped, List.filter_cons, hfilled, if_neg hdropped]
  · rw [hstays]
    by_cases hkeep : o.isKept keep = true
    · rw [if_pos hkeep, CodeModel.linkDefinition, h.attach?_eq_none ho hkeep hnone,
        Option.getD_none]
      refine ⟨h.classes, ?_⟩
      rw [h.operations, List.filter_append, List.filter_cons_of_pos hkeep, List.filter_nil]
    · rw [if_neg hkeep]
      refine ⟨h.classes, ?_⟩
      rw [h.operations, List.filter_append, List.filter_cons_of_neg hkeep, List.filter_nil,
        List.append_nil]

theorem Restricts.foldl_linkDefinition (h : Restricts keep m r) {definitions : List Operation}
    (hwithin : ∀ o ∈ definitions, LinksWithin keep m o) :
    Restricts keep (definitions.foldl CodeModel.linkDefinition m)
      ((definitions.filter (Operation.isKept keep)).foldl CodeModel.linkDefinition r) := by
  induction definitions generalizing m r with
  | nil => exact h
  | cons o definitions ih =>
    rw [List.forall_mem_cons] at hwithin
    have hstep := ih (h.linkDefinition hwithin.1) fun other hother =>
      (hwithin.2 other hother).linkDefinition o
    rw [List.foldl_cons, List.filter_cons]
    split at hstep
    · rename_i hkeep
      rw [if_pos hkeep]
      exact hstep
    · rename_i hkeep
      rw [if_neg hkeep]
      exact hstep

/-- **Linking the parts apart** links nothing else and nothing less. -/
theorem Restricts.linkDefinitions (h : Restricts keep m r)
    (hwithin : ∀ o ∈ m.operations, LinksWithin keep m o) :
    Restricts keep m.linkDefinitions r.linkDefinitions := by
  have hempty : Restricts keep { m with operations := [] } { r with operations := [] } :=
    ⟨h.classes, rfl⟩
  have hlinked := hempty.foldl_linkDefinition hwithin
  unfold CodeModel.linkDefinitions
  rw [h.operations]
  exact hlinked

/-! ## All operations -/

/-- A test that tells the parts apart finds the operations of a part. -/
theorem Restricts.filter_allOperations (h : Restricts keep m r) {rest : CodeModel}
    (hrest : Restricts (fun path => !keep path) m rest) {q : Operation → Bool}
    (hin : ∀ o ∈ r.allOperations, q o = true) (hout : ∀ o ∈ rest.allOperations, q o = false) :
    m.allOperations.filter q = r.allOperations := by
  have hoperations : m.operations.filter q = r.operations := by
    rw [h.operations]
    refine List.filter_congr fun o ho => ?_
    cases hkeep : o.isKept keep with
    | true =>
      refine hin o (List.mem_append_left _ ?_)
      rw [h.operations]
      exact List.mem_filter.mpr ⟨ho, hkeep⟩
    | false =>
      refine hout o (List.mem_append_left _ ?_)
      rw [hrest.operations]
      exact List.mem_filter.mpr ⟨ho, by rw [Operation.isKept] at hkeep ⊢; rw [hkeep]; rfl⟩
  have hclasses : (m.classes.flatMap Class.operations).filter q =
      r.classes.flatMap Class.operations := by
    rw [h.classes]
    refine filter_flatMap (fun c hc hkeep o ho => ?_) fun c hc hkeep o ho => ?_
    · refine hin o (List.mem_append_right _ (List.mem_flatMap.mpr ⟨c, ?_, ho⟩))
      rw [h.classes]
      exact List.mem_filter.mpr ⟨hc, hkeep⟩
    · refine hout o (List.mem_append_right _ (List.mem_flatMap.mpr ⟨c, ?_, ho⟩))
      rw [hrest.classes]
      exact List.mem_filter.mpr ⟨hc, by rw [Class.isKept] at hkeep ⊢; rw [hkeep]; rfl⟩
  rw [allOperations, List.filter_append, hoperations, hclasses, allOperations]

end

end CodeModel

/-! ## Files -/

namespace Read

open CodeModel

/-- The merged models of a set of files, not yet linked. -/
def gathered (parse : Parser) (files : SourceFiles) : CodeModel :=
  (files.entries.filterMap fun entry => (readFile parse entry.1 entry.2).model?).foldl merge {}

variable {parse : Parser} {cache : ParserCache} {files : SourceFiles}

/-- The model that is read is the linked one of what was gathered. -/
theorem exists_language_read (parse : Parser) (cache : ParserCache) (files : SourceFiles) :
    ∃ language, (read parse cache files).model =
      link { gathered parse files with language := language } := by
  refine ⟨dominant? ((files.entries.map fun entry => readFile parse entry.1 entry.2).filterMap
    FileResult.language?), ?_⟩
  rw [gathered, ← Function.comp_def, ← List.filterMap_map]
  rfl

/-- What a file brings in is located in it. -/
theorem within_of_model? {path source : String} {m : CodeModel}
    (h : (readFile parse path source).model? = some m) : m.Within path := by
  unfold readFile at h
  split at h
  · cases h
  · split at h
    · cases h
    · split at h
      · rename_i hmodel
        obtain rfl := Option.some.inj h
        exact Extract.fileModel_within hmodel
      · cases h

/-- What the files bring in, file by file, and the part of it in files that are kept. -/
theorem filter_broughtIn {β : Type} {contents : CodeModel → List β} (fileOf : β → String)
    (hwithin : ∀ (path : String) (m : CodeModel), m.Within path →
      ∀ b ∈ contents m, fileOf b = path) (keep : String → Bool) (entries : List (String × String)) :
    ((entries.filterMap fun entry => (readFile parse entry.1 entry.2).model?).flatMap
        contents).filter (fun b => keep (fileOf b)) =
      ((entries.filter fun entry => keep entry.1).filterMap fun entry =>
        (readFile parse entry.1 entry.2).model?).flatMap contents := by
  have hflat : ∀ list : List (String × String),
      (list.filterMap fun entry => (readFile parse entry.1 entry.2).model?).flatMap contents =
        list.flatMap fun entry =>
          (readFile parse entry.1 entry.2).model?.toList.flatMap contents := by
    intro list
    rw [List.filterMap_eq_flatMap_toList, List.flatMap_assoc]
  have hfile : ∀ entry : String × String,
      ∀ b ∈ (readFile parse entry.1 entry.2).model?.toList.flatMap contents,
        fileOf b = entry.1 := by
    intro entry b hb
    obtain ⟨m, hm, hb⟩ := List.mem_flatMap.mp hb
    exact hwithin entry.1 m (within_of_model? (Option.mem_toList.mp hm)) b hb
  rw [hflat, hflat]
  refine filter_flatMap (fun entry _ hkeep b hb => ?_) fun entry _ hkeep b hb => ?_
  · rw [hfile entry b hb, hkeep]
  · rw [hfile entry b hb, hkeep]

/-- **The part of what all files bring in is what the part of the files brings in.** -/
theorem restricts_gathered (parse : Parser) (keep : String → Bool) (files : SourceFiles) :
    Restricts keep (gathered parse files)
      (gathered parse (files.filter fun path _ => keep path)) := by
  have hstart : Sound ({} : CodeModel) := (Reachable.new none).sound
  constructor
  · rw [gathered, gathered, (foldl_merge hstart _).1, (foldl_merge hstart _).1,
      filter_foldl_appendNew]
    · congr 1
      exact (filter_broughtIn (fun c : Class => c.location.file) (fun _ _ hm => hm.classes) keep
        files.entries).symm
    · intro a b hsame
      rw [Class.isKept, Class.isKept, Class.location_eq_of_beq hsame]
  · rw [gathered, gathered, (foldl_merge hstart _).2, (foldl_merge hstart _).2,
      filter_foldl_appendNew]
    · congr 1
      exact (filter_broughtIn (fun o : Operation => o.location.file) (fun _ _ hm => hm.operations)
        keep files.entries).symm
    · intro a b hsame
      rw [Operation.isKept, Operation.isKept, Operation.location_eq_of_beq hsame]

/-- The language has no part in linking. -/
theorem allOperations_read (parse : Parser) (cache : ParserCache) (files : SourceFiles) :
    (read parse cache files).model.allOperations =
      (gathered parse files).linkDefinitions.allOperations := by
  obtain ⟨language, hread⟩ := exists_language_read parse cache files
  have hsame : Restricts (fun _ => true) (gathered parse files)
      { gathered parse files with language := language } :=
    ⟨(List.filter_true _).symm, (List.filter_true _).symm⟩
  have hlinked := hsame.linkDefinitions fun _ _ _ _ _ _ _ => rfl
  have hclasses := hlinked.classes.trans (List.filter_true _)
  have hoperations := hlinked.operations.trans (List.filter_true _)
  rw [hread, allOperations_link, allOperations, allOperations, hclasses, hoperations]

/-- **A test that tells the parts apart finds the operations of both of them**, in their order. -/
theorem filter_allOperations_read (parse : Parser) (cache : ParserCache) {keep : String → Bool}
    {files : SourceFiles}
    (hwithin : ∀ o ∈ (gathered parse files).operations, LinksWithin keep (gathered parse files) o)
    {q : Operation → Bool}
    (hin : ∀ o ∈ (read parse cache (files.filter fun path _ => keep path)).model.allOperations,
      q o = true)
    (hout : ∀ o ∈ (read parse cache (files.filter fun path _ => !keep path)).model.allOperations,
      q o = false) :
    (read parse cache files).model.allOperations.filter q =
        (read parse cache (files.filter fun path _ => keep path)).model.allOperations ∧
      ((read parse cache files).model.allOperations.filter fun o => !q o) =
        (read parse cache (files.filter fun path _ => !keep path)).model.allOperations := by
  have hpart := (restricts_gathered parse keep files).linkDefinitions hwithin
  have hrest := (restricts_gathered parse (fun path => !keep path) files).linkDefinitions
    fun o ho => (hwithin o ho).not
  have hnot : Restricts (fun path => !!keep path) (gathered parse files).linkDefinitions
      (gathered parse (files.filter fun path _ => keep path)).linkDefinitions := by
    simpa only [Bool.not_not] using hpart
  simp only [allOperations_read] at hin hout ⊢
  constructor
  · exact hpart.filter_allOperations hrest hin hout
  · refine hrest.filter_allOperations hnot (fun o ho => ?_) fun o ho => ?_
    · rw [hout o ho]
      rfl
    · rw [hin o ho]
      rfl

end Read

end Refactor
