import Refactor.Proofs.Merging
import Refactor.Proofs.Restriction
import Refactor.World.Inventory

/-!
# What becomes of each file

**Theorem (`read_isolates`).** Reading divides the files into those that are built, those that are
skipped and those that fail, each path in exactly one place. What is counted on the way agrees with
the division, and files in no known language leave no trace but their paths.

The files that are built are known from the result: they are the sources of its model
(`sources_read`). A model of one file has that file as its only source, merging adds the sources of
other files, and linking leaves them alone.
-/

namespace Refactor

/-! ## Sources of merged models -/

namespace CodeModel

theorem sources_merge (m other : CodeModel) :
    (m.merge other).sources = m.sources.complete other.sources := by
  unfold merge TextMap.complete
  dsimp only
  rw [foldl_keeps (g := sources) (by intros; rfl), foldl_keeps (g := sources) (by intros; rfl)]

/-- The source of a file comes from the first model that has one. -/
theorem get?_sources_foldl_merge (models : List CodeModel) (m : CodeModel) (path : String) :
    (models.foldl merge m).sources.get? path =
      (m.sources.get? path).or (models.findSome? fun other => other.sources.get? path) := by
  induction models generalizing m with
  | nil => simp
  | cons other models ih =>
    rw [List.foldl_cons, ih, sources_merge, TextMap.get?_complete, Option.or_assoc,
      List.findSome?_cons]
    cases other.sources.get? path <;> rfl

theorem sources_link (m : CodeModel) : m.link.sources = m.sources :=
  congrArg (fun records => records.2.2.2) (byFile_link m)

end CodeModel

namespace Read

open CodeModel

/-- A tree is a tree of the text that it was made from. -/
def KeepsSources (parse : Parser) : Prop :=
  ∀ language source tree, parse language source = .ok tree → tree.source = source

theorem source_of_growAll {t t' : SyntaxTree} {nodes : List SyntaxNode}
    (h : t.growAll nodes = .ok t') : t'.source = t.source := by
  induction nodes generalizing t with
  | nil => exact congrArg SyntaxTree.source (Except.ok.inj h).symm
  | cons node nodes ih =>
    obtain ⟨grown, hgrow, hrest⟩ := Extract.exists_of_bind_ok h
    obtain ⟨-, -, -, rfl⟩ := SyntaxTree.exists_attach_of_grow hgrow
    exact (ih hrest).trans rfl

/-- The trees of an inventory are grown over the sources that they stand for. -/
theorem keepsSources_parse (i : Inventory) : KeepsSources i.parse := by
  intro language source tree h
  unfold Inventory.parse at h
  split at h
  · obtain ⟨grown, hgrown, hfinish⟩ := Extract.exists_of_bind_ok h
    unfold SyntaxTree.finish at hfinish
    split at hfinish
    · cases hfinish
    · obtain rfl := Except.ok.inj hfinish
      exact source_of_growAll hgrown
  · cases h

/-! ## Files that are built -/

section

variable {parse : Parser}

/-- A built file is the only source of its model. -/
theorem sources_of_model? (hparse : KeepsSources parse) {path source : String} {m : CodeModel}
    (h : (readFile parse path source).model? = some m) :
    m.sources = TextMap.ofList [(path, source)] := by
  unfold readFile at h
  split at h
  · cases h
  · split at h
    · cases h
    · rename_i tree htree
      split at h
      · rename_i hmodel
        obtain rfl := Option.some.inj h
        rw [(Extract.placed_of_fileModel hmodel).sources, hparse _ _ tree htree]
      · cases h

theorem findSome?_sources (hparse : KeepsSources parse) (entries : List (String × String))
    (key : String) :
    ((entries.filterMap fun entry => (readFile parse entry.1 entry.2).model?).findSome? fun m =>
      m.sources.get? key) =
      (entries.filter fun entry => (readFile parse entry.1 entry.2).model?.isSome).lookup key := by
  induction entries with
  | nil => rfl
  | cons entry entries ih =>
    obtain ⟨path, source⟩ := entry
    rw [List.filterMap_cons, List.filter_cons]
    dsimp only
    cases hmodel : (readFile parse path source).model? with
    | none => exact ih
    | some m =>
      have hsource : m.sources.get? key = if key = path then some source else none := by
        rw [sources_of_model? hparse hmodel]
        exact TextMap.get?_insert _ _ _ _
      dsimp only
      rw [List.findSome?_cons, hsource, Option.isSome_some, if_pos rfl, lookup_cons_ite, ih]
      by_cases hkey : key = path
      · simp [hkey]
      · simp [hkey]

/-- **The sources of the model are the files that were built, with their texts.** -/
theorem sources_read (hparse : KeepsSources parse) (cache : ParserCache) (files : SourceFiles) :
    (read parse cache files).model.sources =
      files.filter fun path source => (readFile parse path source).model?.isSome := by
  obtain ⟨language, hmodel⟩ := exists_language_read parse cache files
  rw [hmodel, sources_link]
  refine TextMap.ext_get? fun key => ?_
  exact (get?_sources_foldl_merge _ {} key).trans (findSome?_sources hparse files.entries key)

end

/-! ## Skipped and failed files -/

section

variable (parse : Parser)

theorem readFile_eq_skipped {path source : String} (h : Language.ofPath? path = none) :
    readFile parse path source = .skipped path := by
  unfold readFile
  rw [h]

theorem ofPath?_of_skipped {path source other : String}
    (h : readFile parse path source = .skipped other) :
    Language.ofPath? path = none ∧ other = path := by
  unfold readFile at h
  split at h
  · rename_i hnone
    cases h
    exact ⟨hnone, rfl⟩
  · split at h
    · cases h
    · split at h <;> cases h

theorem skipped_read (cache : ParserCache) (files : SourceFiles) :
    (read parse cache files).skipped =
      files.keys.filter fun path => (Language.ofPath? path).isNone := by
  unfold read TextMap.keys
  dsimp only
  induction files.entries with
  | nil => rfl
  | cons entry entries ih =>
    obtain ⟨path, source⟩ := entry
    rw [List.map_cons, List.map_cons]
    cases hlanguage : Language.ofPath? path with
    | none =>
      rw [List.filter_cons_of_pos (by simp [hlanguage]), ← ih, readFile_eq_skipped parse hlanguage]
      rfl
    | some language =>
      have hskipped : (readFile parse path source).skipped? = none := by
        cases hread : readFile parse path source with
        | skipped other =>
          rw [(ofPath?_of_skipped parse hread).1] at hlanguage
          cases hlanguage
        | _ => rfl
      rw [List.filter_cons_of_neg (by simp [hlanguage]), List.filterMap_cons_none hskipped, ih]

/-- Each path goes to one of the three places. -/
theorem perm_outcomes (entries : List (String × String)) :
    let results := entries.map fun entry => readFile parse entry.1 entry.2
    ((entries.filter fun entry => (readFile parse entry.1 entry.2).model?.isSome).map Prod.fst ++
      results.filterMap FileResult.skipped? ++
      (results.filterMap FileResult.failed?).map Prod.fst).Perm (entries.map Prod.fst) := by
  induction entries with
  | nil => exact .nil
  | cons entry entries ih =>
    obtain ⟨path, source⟩ := entry
    dsimp only at ih ⊢
    rw [List.filter_cons, List.map_cons, List.map_cons, List.filterMap_cons, List.filterMap_cons]
    cases hread : readFile parse path source with
    | built language m =>
      simpa [FileResult.model?, FileResult.skipped?, FileResult.failed?] using ih
    | skipped other =>
      obtain rfl := (ofPath?_of_skipped parse hread).2
      simp only [FileResult.model?, FileResult.skipped?, FileResult.failed?, Option.isSome_none,
        Bool.false_eq_true, if_false]
      rw [List.append_assoc, List.cons_append]
      exact List.perm_middle.trans ((List.append_assoc _ _ _ ▸ ih).cons other)
    | failed other error =>
      obtain rfl := path_of_failed hread
      simp only [FileResult.model?, FileResult.skipped?, FileResult.failed?, Option.isSome_none,
        Bool.false_eq_true, if_false, List.map_cons]
      exact List.perm_middle.trans (ih.cons other)

end

/-! ## Counts -/

/-- What is counted along a list of results. -/
theorem record_results (results : List FileResult) (p : Progress) :
    results.foldl FileResult.record p =
      { p with
        processed := p.processed + (results.filterMap FileResult.model?).length +
          (results.filterMap FileResult.failed?).length
        skipped := p.skipped + (results.filterMap FileResult.skipped?).length
        failed := p.failed + (results.filterMap FileResult.failed?).length } := by
  induction results generalizing p with
  | nil => rfl
  | cons result results ih =>
    rw [List.foldl_cons, ih]
    cases result <;>
      simp [FileResult.record, Progress.recordProcessed, Progress.recordSkipped,
        Progress.recordFailed, List.filterMap_cons, FileResult.model?, FileResult.skipped?,
        FileResult.failed?] <;>
      omega

/-! ## Files in no known language -/

/-- The files that are in a known language. -/
def supported (files : SourceFiles) : SourceFiles :=
  files.filter fun path _ => (Language.ofPath? path).isSome

theorem supported_congr {files files' : SourceFiles}
    (h : ∀ path, (Language.ofPath? path).isSome = true → files'.get? path = files.get? path) :
    supported files' = supported files := by
  refine TextMap.ext_get? fun path => ?_
  unfold supported
  rw [TextMap.get?_filter, TextMap.get?_filter]
  by_cases hpath : (Language.ofPath? path).isSome = true
  · rw [h path hpath]
  · have hnone : ∀ found : Option String,
        found.filter (fun _ => (Language.ofPath? path).isSome) = none := by
      intro found
      cases found <;> simp [hpath]
    rw [hnone, hnone]

/-- What is read off the results without looking at skipped files comes from the supported ones. -/
theorem filterMap_supported {β : Type} (parse : Parser) (g : FileResult → Option β)
    (hg : ∀ path, g (.skipped path) = none) (files : SourceFiles) :
    (files.entries.map fun entry => readFile parse entry.1 entry.2).filterMap g =
      ((supported files).entries.map fun entry => readFile parse entry.1 entry.2).filterMap g := by
  rw [List.filterMap_map, List.filterMap_map, supported, TextMap.filter, List.filterMap_filter]
  refine List.filterMap_congr fun entry _ => ?_
  split
  · rfl
  · rename_i hnone
    rw [Function.comp_apply, readFile_eq_skipped parse (by simpa using hnone), hg]

theorem read_supported (parse : Parser) (cache cache' : ParserCache) (files : SourceFiles) :
    (read parse cache files).model = (read parse cache' (supported files)).model ∧
      (read parse cache files).failed = (read parse cache' (supported files)).failed := by
  have hmodels := filterMap_supported parse FileResult.model? (fun _ => rfl) files
  have hlanguages := filterMap_supported parse FileResult.language? (fun _ => rfl) files
  refine ⟨?_, filterMap_supported parse FileResult.failed? (fun _ => rfl) files⟩
  unfold read combine
  dsimp only
  rw [hmodels, hlanguages]

/-! ## Isolation -/

/-- **Files do not get in each other's way.** Every path is built, skipped or failed, and only one
of these. Skipped are those in no known language, in the order of the paths; the counts agree with
the lists; and with other files in no known language the model and the failures are the same. -/
theorem read_isolates {parse : Parser} (hparse : KeepsSources parse) (cache : ParserCache)
    (files : SourceFiles) :
    let reading := read parse cache files
    let built := reading.model.sources
    (built.keys ++ reading.skipped ++ reading.failed.map Prod.fst).Perm files.keys ∧
    reading.skipped = files.keys.filter (fun path => (Language.ofPath? path).isNone) ∧
    built = files.filter (fun path source => (readFile parse path source).model?.isSome) ∧
    (reading.progress.processed = built.size + reading.failed.length ∧
      reading.progress.successful = built.size ∧
      reading.progress.failed = reading.failed.length ∧
      reading.progress.skipped = reading.skipped.length) ∧
    ∀ (cache' : ParserCache) (files' : SourceFiles),
      (∀ path, (Language.ofPath? path).isSome = true → files'.get? path = files.get? path) →
      (read parse cache' files').model = reading.model ∧
        (read parse cache' files').failed = reading.failed := by
  intro reading built
  have hbuilt : built = files.filter fun path source =>
      (readFile parse path source).model?.isSome := sources_read hparse cache files
  have hsize : built.size = ((files.entries.map fun entry =>
      readFile parse entry.1 entry.2).filterMap FileResult.model?).length := by
    rw [hbuilt, TextMap.size, TextMap.filter, List.filterMap_map, List.length_filterMap_eq_countP,
      List.countP_eq_length_filter]
    rfl
  have hprogress : reading.progress =
      { processed := built.size + reading.failed.length
        skipped := reading.skipped.length
        failed := reading.failed.length } := by
    rw [hsize]
    refine (record_results _ _).trans ?_
    simp only [Nat.zero_add]
    rfl
  refine ⟨?_, skipped_read parse cache files, hbuilt, ?_, ?_⟩
  · rw [hbuilt]
    exact perm_outcomes parse files.entries
  · rw [hprogress]
    exact ⟨rfl, Nat.add_sub_cancel _ _, rfl, rfl⟩
  · intro cache' files' hsame
    obtain ⟨hmodel, hfailed⟩ := read_supported parse cache {} files
    obtain ⟨hmodel', hfailed'⟩ := read_supported parse cache' {} files'
    rw [supported_congr hsame] at hmodel' hfailed'
    exact ⟨hmodel'.trans hmodel.symm, hfailed'.trans hfailed.symm⟩

/-- One source has a tree. -/
def oneTree : Inventory :=
  { trees := [(.python, "x", [⟨"module", none, true, 0, 1, none, []⟩])] }

/-- A file with a tree and one without. -/
def knownFiles : SourceFiles :=
  .ofList [("a.py", "x"), ("c.js", "z")]

/-- With a file in no known language between them, one file is built and one fails as before. -/
theorem read_isolates_unknown :
    let reading := read oneTree.parse {} (knownFiles.insert "b.txt" "y")
    (reading.model.sources.keys, reading.skipped, reading.failed.map Prod.fst) =
        (["a.py"], ["b.txt"], ["c.js"]) ∧
      (reading.progress.processed, reading.progress.successful) = (2, 1) ∧
      (read oneTree.parse {} knownFiles).model = reading.model := by
  intro reading
  obtain ⟨-, -, -, -, hsame⟩ := read_isolates (keepsSources_parse oneTree) {}
    (knownFiles.insert "b.txt" "y")
  refine ⟨by decide +kernel, by decide +kernel, (hsame {} knownFiles fun path hpath => ?_).1⟩
  have hne : path ≠ "b.txt" := by
    rintro rfl
    revert hpath
    decide +kernel
  rw [TextMap.get?_insert, if_neg hne]

end Read

end Refactor
