import Refactor.Proofs.IndexedList
import Refactor.Proofs.Linking
import Refactor.Proofs.TextMaps

/-!
# Merging in any grouping

What can be asked of a model is its contents; the indexes only make additions fast. On contents
each part is merged by a rule of its own: the first language stays, equal classes and operations
are kept once, comments and imports are strung together, the first package and source of a file
stay, and deferred values are listed one after the other (`Contents.merge`). Each rule is
associative, and so is merging.

- `Indexed`: an index keeps track of its list, and no two members are equal. Every model that was
  built by the operations on models has such lists (`Reachable.sound`).
- `contents_merge`: for sound models, merging through the indexes is merging of contents.
- `merge_monoid`: merging is associative with the empty model as identity, so models may be merged
  in any grouping.
-/

namespace Refactor

/-! ## Lists without equal members -/

section

variable {α : Type} [BEq α] [EquivBEq α]

/-- No two members are equal. -/
def Distinct (items : List α) : Prop :=
  items.Pairwise fun a b => (a == b) = false

theorem contains_appendNew (items : List α) (item other : α) :
    (appendNew items item).contains other = (items.contains other || other == item) := by
  unfold appendNew
  split
  · rename_i hcontains
    by_cases hsame : (other == item) = true
    · rw [List.contains_congr hsame, hcontains, Bool.true_or]
    · rw [Bool.eq_false_iff.mpr hsame, Bool.or_false]
  · simp

theorem contains_foldl_appendNew (items more : List α) (other : α) :
    (more.foldl appendNew items).contains other =
      (items.contains other || more.contains other) := by
  induction more generalizing items with
  | nil => simp
  | cons item more ih =>
    rw [List.foldl_cons, ih, contains_appendNew, List.contains_cons, Bool.or_assoc]

/-- Whether a member is added last of all or to the members that are added makes no difference. -/
theorem appendNew_foldl (items more : List α) (item : α) :
    appendNew (more.foldl appendNew items) item = (appendNew more item).foldl appendNew items := by
  by_cases hcontains : more.contains item = true
  · rw [appendNew, appendNew, contains_foldl_appendNew, hcontains, Bool.or_true, if_pos rfl,
      if_pos rfl]
  · rw [appendNew.eq_def more, if_neg hcontains, List.foldl_append]
    rfl

theorem foldl_appendNew_assoc (items more rest : List α) :
    rest.foldl appendNew (more.foldl appendNew items) =
      (rest.foldl appendNew more).foldl appendNew items := by
  induction rest generalizing more with
  | nil => rfl
  | cons item rest ih => rw [List.foldl_cons, List.foldl_cons, appendNew_foldl, ih]

theorem Distinct.appendNew {items : List α} (h : Distinct items) (item : α) :
    Distinct (appendNew items item) := by
  unfold Refactor.appendNew
  split
  · exact h
  · rename_i hnew
    refine List.pairwise_append.mpr ⟨h, List.pairwise_singleton _ _, fun a ha b hb => ?_⟩
    obtain rfl := List.mem_singleton.mp hb
    refine Bool.eq_false_iff.mpr fun hsame => hnew ?_
    exact List.contains_iff_exists_mem_beq.mpr ⟨a, ha, BEq.symm hsame⟩

/-- Of members that differ all are added. -/
theorem foldl_appendNew_of_distinct (items more : List α) (h : Distinct (items ++ more)) :
    more.foldl appendNew items = items ++ more := by
  induction more generalizing items with
  | nil => rw [List.append_nil, List.foldl_nil]
  | cons item more ih =>
    have hnew : ¬ items.contains item = true := by
      intro hcontains
      obtain ⟨other, hother, hsame⟩ := List.contains_iff_exists_mem_beq.mp hcontains
      have hdiffer := (List.pairwise_append.mp h).2.2 other hother item List.mem_cons_self
      rw [BEq.symm hsame] at hdiffer
      cases hdiffer
    rw [List.append_cons] at h ⊢
    rw [List.foldl_cons, appendNew, if_neg hnew]
    exact ih (items ++ [item]) h

end

/-- Members with the same identities are distinct alike. -/
theorem Distinct.of_map_eq {α β : Type} [BEq α] {identity : α → β}
    (hidentity : ∀ a b : α, (a == b) = true ↔ identity a = identity b) {items others : List α}
    (h : Distinct items) (hothers : others.map identity = items.map identity) :
    Distinct others := by
  have hiff : ∀ list : List α, Distinct list ↔ (list.map identity).Pairwise (· ≠ ·) := by
    intro list
    rw [List.pairwise_map, Distinct]
    have hne : ∀ a b : α, (a == b) = false ↔ identity a ≠ identity b := fun a b => by
      rw [← Bool.not_eq_true, hidentity]
    simp only [hne]
  rw [hiff, hothers, ← hiff]
  exact h

/-- A list whose index keeps track of it, without equal members. -/
structure Indexed {α : Type} [BEq α] (locate : α → Location) (items : List α)
    (index : LocationIndex) : Prop where
  tracks : index.Tracks locate items
  distinct : Distinct items

theorem indexed_empty {α : Type} [BEq α] (locate : α → Location) : Indexed locate [] {} :=
  ⟨LocationIndex.tracks_empty locate, List.Pairwise.nil⟩

theorem Indexed.pushUnique {α : Type} [BEq α] [EquivBEq α] {locate : α → Location}
    (hlocate : ∀ a b : α, (a == b) = true → locate a = locate b) {items : List α}
    {index : LocationIndex} (h : Indexed locate items index) (item : α) :
    Indexed locate (index.pushUnique locate items item).2.1
      (index.pushUnique locate items item).1 where
  tracks := h.tracks.pushUnique item
  distinct := by
    rw [LocationIndex.pushUnique_eq_appendNew hlocate h.tracks.reliable]
    exact h.distinct.appendNew item

theorem Indexed.sublist {α : Type} [BEq α] {locate : α → Location} {items fewer : List α}
    {index : LocationIndex} (h : Indexed locate items index) (hfewer : fewer.Sublist items) :
    Indexed locate fewer index :=
  ⟨h.tracks.sublist hfewer, h.distinct.sublist hfewer⟩

/-! ## Maps -/

namespace TextMap

variable {α : Type}

/-- The lists of both maps, those of the first one first. -/
def stringTogether (m other : TextMap (List α)) : TextMap (List α) :=
  other.entries.foldl (fun all entry => all.update entry.1 [] (· ++ entry.2)) m

/-- The entries of the first map, and those of the second one under other keys. -/
def complete (m other : TextMap α) : TextMap α :=
  other.entries.foldl (fun all entry => all.insertIfNew entry.1 entry.2) m

theorem get?_stringTogether (m other : TextMap (List α)) (key : String) :
    (stringTogether m other).get? key =
      (other.get? key).elim (m.get? key) fun more => some ((m.get? key).getD [] ++ more) :=
  get?_foldl_entries (fun found more => some (found.getD [] ++ more))
    (fun all entry key => get?_update all entry.1 key [] (· ++ entry.2)) m other key

theorem get?_complete (m other : TextMap α) (key : String) :
    (complete m other).get? key = (m.get? key).or (other.get? key) := by
  have hfound := get?_foldl_entries (fun found value => found.or (some value))
    (fun all entry key => get?_insertIfNew all entry.1 key entry.2) m other key
  rw [complete, hfound]
  cases other.get? key with
  | none => simp
  | some value => rfl

theorem stringTogether_assoc (a b c : TextMap (List α)) :
    stringTogether (stringTogether a b) c = stringTogether a (stringTogether b c) := by
  refine ext_get? fun key => ?_
  simp only [get?_stringTogether]
  cases a.get? key <;> cases b.get? key <;> cases c.get? key <;> simp

theorem complete_assoc (a b c : TextMap α) :
    complete (complete a b) c = complete a (complete b c) := by
  refine ext_get? fun key => ?_
  simp only [get?_complete, Option.or_assoc]

theorem stringTogether_empty_left (m : TextMap (List α)) : stringTogether {} m = m := by
  refine ext_get? fun key => ?_
  rw [get?_stringTogether]
  cases m.get? key with
  | none => rfl
  | some list => rfl

theorem complete_empty_left (m : TextMap α) : complete {} m = m :=
  ext_get? fun key => get?_complete {} m key

end TextMap

/-! ## Contents -/

/-- What can be asked of a model. -/
structure Contents where
  language : Option Language
  classes : List Class
  operations : List Operation
  comments : TextMap (List Comment)
  imports : TextMap (List Import)
  packages : TextMap String
  sources : TextMap String
  deferred : List StaticInitializer

namespace Contents

/-- Each part merged by its own rule. -/
def merge (a b : Contents) : Contents where
  language := a.language <|> b.language
  classes := b.classes.foldl appendNew a.classes
  operations := b.operations.foldl appendNew a.operations
  comments := a.comments.stringTogether b.comments
  imports := a.imports.stringTogether b.imports
  packages := a.packages.complete b.packages
  sources := a.sources.complete b.sources
  deferred := a.deferred ++ b.deferred

theorem merge_assoc (a b c : Contents) : (a.merge b).merge c = a.merge (b.merge c) := by
  have hlanguage : ((a.language <|> b.language) <|> c.language) =
      (a.language <|> b.language <|> c.language) := by
    cases a.language <;> rfl
  simp only [merge, hlanguage, foldl_appendNew_assoc, TextMap.stringTogether_assoc,
    TextMap.complete_assoc, List.append_assoc]

end Contents

namespace CodeModel

/-- What can be asked of the model. -/
def contents (m : CodeModel) : Contents where
  language := m.language
  classes := m.classes
  operations := m.operations
  comments := m.comments
  imports := m.imports
  packages := m.packages
  sources := m.sources
  deferred := m.deferred

/-! ## Sound models -/

/-- The classes and the operations are indexed. -/
structure Sound (m : CodeModel) : Prop where
  classes : Indexed Class.location m.classes m.classIndex
  operations : Indexed Operation.location m.operations m.operationIndex

theorem addClass_classes {m : CodeModel} (h : Sound m) (c : Class) :
    (m.addClass c).classes = appendNew m.classes c :=
  LocationIndex.pushUnique_eq_appendNew (fun _ _ => Class.location_eq_of_beq)
    h.classes.tracks.reliable c

theorem addOperation_operations {m : CodeModel} (h : Sound m) (o : Operation) :
    (m.addOperation o).operations = appendNew m.operations o :=
  LocationIndex.pushUnique_eq_appendNew (fun _ _ => Operation.location_eq_of_beq)
    h.operations.tracks.reliable o

theorem Sound.addClass {m : CodeModel} (h : Sound m) (c : Class) : Sound (m.addClass c) where
  classes := h.classes.pushUnique (fun _ _ => Class.location_eq_of_beq) c
  operations := h.operations

theorem Sound.addOperation {m : CodeModel} (h : Sound m) (o : Operation) :
    Sound (m.addOperation o) where
  classes := h.classes
  operations := h.operations.pushUnique (fun _ _ => Operation.location_eq_of_beq) o

/-- Adding classes one by one adds to the contents what a plain scan would add. -/
theorem foldl_addClass {m : CodeModel} (h : Sound m) (classes : List Class) :
    Sound (classes.foldl addClass m) ∧ (classes.foldl addClass m).contents =
      { m.contents with classes := classes.foldl appendNew m.contents.classes } := by
  induction classes generalizing m with
  | nil => exact ⟨h, rfl⟩
  | cons c classes ih =>
    obtain ⟨hsound, hcontents⟩ := ih (h.addClass c)
    refine ⟨hsound, ?_⟩
    rw [List.foldl_cons, hcontents, contents, addClass_classes h]
    rfl

theorem foldl_addOperation {m : CodeModel} (h : Sound m) (operations : List Operation) :
    Sound (operations.foldl addOperation m) ∧ (operations.foldl addOperation m).contents =
      { m.contents with operations := operations.foldl appendNew m.contents.operations } := by
  induction operations generalizing m with
  | nil => exact ⟨h, rfl⟩
  | cons o operations ih =>
    obtain ⟨hsound, hcontents⟩ := ih (h.addOperation o)
    refine ⟨hsound, ?_⟩
    rw [List.foldl_cons, hcontents, contents, addOperation_operations h]
    rfl

/-- **For sound models, merging is merging of contents**, and gives a sound model. -/
theorem merge_contents {m : CodeModel} (h : Sound m) (other : CodeModel) :
    Sound (m.merge other) ∧ (m.merge other).contents = m.contents.merge other.contents := by
  have hlanguage : Sound { m with language := m.language <|> other.language } :=
    ⟨h.classes, h.operations⟩
  obtain ⟨hclasses, hcontents⟩ := foldl_addClass hlanguage other.classes
  obtain ⟨hoperations, hbase⟩ := foldl_addOperation hclasses other.operations
  rw [hcontents] at hbase
  constructor
  · exact ⟨hoperations.classes, hoperations.operations⟩
  · generalize hm : other.operations.foldl addOperation (other.classes.foldl addClass
      { m with language := m.language <|> other.language }) = base at hbase
    have hmerge : (m.merge other).contents =
        { base.contents with
          comments := base.contents.comments.stringTogether other.comments
          imports := base.contents.imports.stringTogether other.imports
          packages := base.contents.packages.complete other.packages
          sources := base.contents.sources.complete other.sources
          deferred := base.contents.deferred ++ other.deferred } := by
      rw [← hm]
      rfl
    rw [hmerge, hbase]
    rfl

/-! ## Models that were built -/

/-- The models that the operations on models build. -/
inductive Reachable : CodeModel → Prop
  | new (language : Option Language) : Reachable (new language)
  | addClass {m : CodeModel} (h : Reachable m) (c : Class) : Reachable (m.addClass c)
  | addOperation {m : CodeModel} (h : Reachable m) (o : Operation) : Reachable (m.addOperation o)
  | addImport {m : CodeModel} (h : Reachable m) (path : String) (i : Import) :
    Reachable (m.addImport path i)
  | addComment {m : CodeModel} (h : Reachable m) (path : String) (c : Comment) :
    Reachable (m.addComment path c)
  | setPackage {m : CodeModel} (h : Reachable m) (path package : String) :
    Reachable (m.setPackage path package)
  | addSource {m : CodeModel} (h : Reachable m) (path source : String) :
    Reachable (m.addSource path source)
  | defer {m : CodeModel} (h : Reachable m) (i : StaticInitializer) : Reachable (m.defer i)
  | merge {m other : CodeModel} (h : Reachable m) (hother : Reachable other) :
    Reachable (m.merge other)
  | link {m : CodeModel} (h : Reachable m) : Reachable m.link
  | clear {m : CodeModel} (h : Reachable m) : Reachable m.clear

theorem Sound.link {m : CodeModel} (h : Sound m) : Sound m.link := by
  obtain ⟨hkeeps, hsublist⟩ := keeps_link m
  constructor
  · have hlocations : m.link.classes.map Class.location = m.classes.map Class.location := by
      simpa only [List.map_map, Function.comp_def, Class.identity] using
        congrArg (List.map fun identity => identity.2.2) hkeeps.identities
    rw [hkeeps.classIndex]
    exact ⟨h.classes.tracks.of_map_eq hlocations,
      h.classes.distinct.of_map_eq Class.beq_iff hkeeps.identities⟩
  · rw [hkeeps.operationIndex]
    exact h.operations.sublist hsublist

/-- The indexes of what was cleared are old, and are noticed to be. -/
theorem Sound.clear {m : CodeModel} (h : Sound m) : Sound m.clear where
  classes := h.classes.sublist (List.nil_sublist _)
  operations := h.operations.sublist (List.nil_sublist _)

theorem Reachable.sound {m : CodeModel} (h : Reachable m) : Sound m := by
  induction h with
  | new _ => exact ⟨indexed_empty _, indexed_empty _⟩
  | addClass _ c ih => exact ih.addClass c
  | addOperation _ o ih => exact ih.addOperation o
  | addImport _ _ _ ih => exact ⟨ih.classes, ih.operations⟩
  | addComment _ _ _ ih => exact ⟨ih.classes, ih.operations⟩
  | setPackage _ _ _ ih => exact ⟨ih.classes, ih.operations⟩
  | addSource _ _ _ ih => exact ⟨ih.classes, ih.operations⟩
  | defer _ _ ih => exact ⟨ih.classes, ih.operations⟩
  | merge _ _ ih _ => exact (merge_contents ih _).1
  | link _ ih => exact ih.link
  | clear _ ih => exact ih.clear

/-! ## The laws -/

variable {a b : CodeModel}

theorem contents_merge (ha : Reachable a) (b : CodeModel) :
    (a.merge b).contents = a.contents.merge b.contents :=
  (merge_contents ha.sound b).2

theorem contents_merge_assoc (ha : Reachable a) (hb : Reachable b) (c : CodeModel) :
    ((a.merge b).merge c).contents = (a.merge (b.merge c)).contents := by
  rw [contents_merge (ha.merge hb), contents_merge ha, contents_merge ha, contents_merge hb,
    Contents.merge_assoc]

/-- The model of nothing adds nothing in front, since no model has equal members. -/
theorem contents_new_merge (ha : Reachable a) : ((new none).merge a).contents = a.contents := by
  have hclasses : a.classes.foldl appendNew [] = a.classes :=
    foldl_appendNew_of_distinct [] a.classes ha.sound.classes.distinct
  have hoperations : a.operations.foldl appendNew [] = a.operations :=
    foldl_appendNew_of_distinct [] a.operations ha.sound.operations.distinct
  rw [contents_merge (.new none)]
  simp only [contents, Contents.merge, new, hclasses, hoperations,
    TextMap.stringTogether_empty_left, TextMap.complete_empty_left, List.nil_append]
  cases a.language <;> rfl

theorem contents_merge_new (ha : Reachable a) : (a.merge (new none)).contents = a.contents := by
  rw [contents_merge ha]
  simp only [contents, Contents.merge, new, List.foldl_nil, List.append_nil]
  cases a.language <;> rfl

end CodeModel

/-- A way to merge models two by two. -/
inductive Grouping
  | single (m : CodeModel)
  | pair (first second : Grouping)

namespace Grouping

/-- The models in their order. -/
def models : Grouping → List CodeModel
  | single m => [m]
  | pair first second => first.models ++ second.models

/-- The models merged as grouped. -/
def merged : Grouping → CodeModel
  | single m => m
  | pair first second => first.merged.merge second.merged

open CodeModel

theorem reachable_merged {g : Grouping} (h : ∀ m ∈ g.models, Reachable m) : Reachable g.merged := by
  induction g with
  | single m => exact h m List.mem_cons_self
  | pair first second ihfirst ihsecond =>
    exact (ihfirst fun m hm => h m (List.mem_append_left _ hm)).merge
      (ihsecond fun m hm => h m (List.mem_append_right _ hm))

theorem reachable_foldl_merge {a : CodeModel} (ha : Reachable a) {models : List CodeModel}
    (h : ∀ m ∈ models, Reachable m) : Reachable (models.foldl merge a) := by
  induction models generalizing a with
  | nil => exact ha
  | cons m models ih =>
    exact ih (ha.merge (h m List.mem_cons_self)) fun other hother =>
      h other (List.mem_cons_of_mem _ hother)

/-- Merging models one by one is merging them as grouped. -/
theorem contents_foldl_merge {a : CodeModel} (ha : Reachable a) {g : Grouping}
    (h : ∀ m ∈ g.models, Reachable m) :
    (g.models.foldl merge a).contents = (a.merge g.merged).contents := by
  induction g generalizing a with
  | single m => rfl
  | pair first second ihfirst ihsecond =>
    have hfirst : ∀ m ∈ first.models, Reachable m := fun m hm => h m (List.mem_append_left _ hm)
    have hsecond : ∀ m ∈ second.models, Reachable m := fun m hm => h m (List.mem_append_right _ hm)
    have hmerged := reachable_merged hfirst
    have hfold := reachable_foldl_merge ha hfirst
    calc ((first.models ++ second.models).foldl merge a).contents
        = ((first.models.foldl merge a).merge second.merged).contents := by
          rw [List.foldl_append, ihsecond hfold hsecond]
      _ = ((a.merge first.merged).merge second.merged).contents := by
          rw [contents_merge hfold, ihfirst ha hfirst, contents_merge (ha.merge hmerged)]
      _ = (a.merge (first.merged.merge second.merged)).contents :=
          contents_merge_assoc ha hmerged second.merged

end Grouping

namespace CodeModel

/-- **Merging is associative, the model of nothing is its identity, and the grouping does not
matter.** -/
theorem merge_monoid {a b : CodeModel} (ha : Reachable a) (hb : Reachable b) (c : CodeModel) :
    ((a.merge b).merge c).contents = (a.merge (b.merge c)).contents ∧
      ((new none).merge a).contents = a.contents ∧ (a.merge (new none)).contents = a.contents ∧
      ∀ g : Grouping, (∀ m ∈ g.models, Reachable m) →
        g.merged.contents = (g.models.foldl merge (new none)).contents := by
  refine ⟨contents_merge_assoc ha hb c, contents_new_merge ha, contents_merge_new ha, ?_⟩
  intro g hg
  rw [Grouping.contents_foldl_merge (.new none) hg,
    contents_new_merge (Grouping.reachable_merged hg)]

/-- The first model was cleared, so its index is older than its list, and the operations of the
others are partly its own. -/
theorem merge_monoid_cleared :
    let operation (name : String) : Operation :=
      { name := name
        location := ⟨"m.py", ⟨0, 0⟩, ⟨0, 1⟩, .methodDeclaration, by decide, by decide⟩ }
    let a := ((new none).addOperation (operation "f")).clear.addOperation (operation "f")
    let b := ((new (some .python)).addOperation (operation "g")).addOperation (operation "f")
    let c := ((new (some .cpp)).addOperation (operation "g")).setPackage "m.py" "m"
    let grouped := a.merge (b.merge c)
    ((a.merge b).merge c).contents = grouped.contents ∧
      ((new none).merge a).contents = a.contents ∧ (a.merge (new none)).contents = a.contents ∧
      grouped.contents = ((((new none).merge a).merge b).merge c).contents ∧
      grouped.language = some .python ∧ grouped.operations.map Operation.name = ["f", "g"] := by
  intro operation a b c grouped
  have ha : Reachable a := (((Reachable.new none).addOperation _).clear).addOperation _
  have hb : Reachable b := ((Reachable.new _).addOperation _).addOperation _
  have hc : Reachable c := ((Reachable.new _).addOperation _).setPackage _ _
  obtain ⟨hassoc, hleft, hright, hgrouping⟩ := merge_monoid ha hb c
  refine ⟨hassoc, hleft, hright, ?_, by decide +kernel, by decide +kernel⟩
  refine hgrouping (.pair (.single a) (.pair (.single b) (.single c))) fun m hm => ?_
  rcases List.mem_cons.mp hm with rfl | hm
  · exact ha
  · rcases List.mem_cons.mp hm with rfl | hm
    · exact hb
    · exact List.mem_singleton.mp hm ▸ hc

end CodeModel

end Refactor
