import Refactor.Diff.Parameters
import Refactor.Proofs.Matching
import Refactor.Proofs.TextMaps

/-!
# Parameters position by position

**Theorem (`between_by_position`).** Comparing the parameters of two operations tells, for each
position of both lists in order, that a parameter was renamed, if the two names differ and did not
stand at an earlier position, or that its type was changed, if the names are equal and the types
are not; then, what was added. The first position is left out for the receiver `self` of two Python
methods. A name is mapped to the one that it was renamed to last, where each pair of names counts
at the first position that has it.

Positions are described by `placeAt?` and pairs of names by `FirstAt`, neither of which speaks of
the scan. The scan is then followed position by position: `Tells` says what it knows after `n` of
them.
-/

namespace Refactor.Diff

/-! ## Positions -/

/-- The parameters at a position of both operations. The receiver of Python methods is left out. -/
def placeAt? (old new : Operation) (k : Nat) : Option (Parameter × Parameter) :=
  old.parameters[k]?.bind fun before =>
    new.parameters[k]?.bind fun after =>
      if k = 0 ∧ Language.ofPath? old.location.file = some .python ∧ before.name = "self" ∧
        after.name = "self" then none
      else some (before, after)

/-- The names of two parameters. -/
def namesOf (place : Parameter × Parameter) : String × String :=
  (place.1.name, place.2.name)

/-- A pair of names stands at a position and at none before it. -/
def FirstAt (places : Nat → Option (Parameter × Parameter)) (names : String × String) (k : Nat) :
    Prop :=
  (places k).map namesOf = some names ∧ ∀ j < k, (places j).map namesOf ≠ some names

instance (places : Nat → Option (Parameter × Parameter)) (names : String × String) (k : Nat) :
    Decidable (FirstAt places names k) :=
  inferInstanceAs (Decidable (_ ∧ _))

/-- What the parameters at a position tell. -/
def foundAt? (o : Operation) (places : Nat → Option (Parameter × Parameter)) (k : Nat) :
    Option Refactoring :=
  (places k).bind fun place =>
    if place.1.name ≠ place.2.name then
      if FirstAt places (namesOf place) k then some (.renameParameter place.1 place.2 o) else none
    else if place.1.type != place.2.type then some (.changeParameterType place.1 place.2 o)
    else none

/-- Of the names that `a` was renamed to at the first `n` positions, `b` is the one whose first
position comes last. -/
def RenamedLast (places : Nat → Option (Parameter × Parameter)) (n : Nat) (a b : String) : Prop :=
  ∃ k < n, a ≠ b ∧ FirstAt places (a, b) k ∧
    ∀ l < n, ∀ c, a ≠ c → FirstAt places (a, c) l → l ≤ k

/-! ## Following the scan -/

/-- What a scan knows after the first `n` positions. -/
structure Tells (o : Operation) (places : Nat → Option (Parameter × Parameter)) (n : Nat)
    (scan : ParameterScan) : Prop where
  seen : ∀ names, names ∈ scan.seen ↔
    names.1 ≠ names.2 ∧ ∃ k < n, (places k).map namesOf = some names
  renames : ∀ a b, scan.found.renames.get? a = some b ↔ RenamedLast places n a b
  refactorings : scan.found.refactorings = (List.range n).filterMap (foundAt? o places)

section

variable {o : Operation} {places : Nat → Option (Parameter × Parameter)} {n : Nat}
  {scan : ParameterScan} {place : Parameter × Parameter}

/-- A position that brings no new name for `a` leaves the last one as it is. -/
theorem renamedLast_succ {a : String} (h : ∀ c, a ≠ c → ¬ FirstAt places (a, c) n) (b : String) :
    RenamedLast places (n + 1) a b ↔ RenamedLast places n a b := by
  constructor
  · rintro ⟨k, hk, hab, hfirst, hlast⟩
    have hne : k ≠ n := fun heq => h b hab (heq ▸ hfirst)
    exact ⟨k, by omega, hab, hfirst, fun l hl => hlast l (Nat.lt_succ_of_lt hl)⟩
  · rintro ⟨k, hk, hab, hfirst, hlast⟩
    refine ⟨k, Nat.lt_succ_of_lt hk, hab, hfirst, fun l hl c hac hfirst' => ?_⟩
    have hne : l ≠ n := fun heq => h c hac (heq ▸ hfirst')
    exact hlast l (by omega) c hac hfirst'

/-- A new renaming comes last for its own name and counts for no other. -/
theorem renamedLast_succ_of_first {p q : String} (hpq : p ≠ q) (h : FirstAt places (p, q) n)
    (a b : String) :
    RenamedLast places (n + 1) a b ↔ if a = p then b = q else RenamedLast places n a b := by
  have hnames : ∀ a c, FirstAt places (a, c) n → a = p ∧ c = q := fun a c hfirst =>
    Prod.mk.inj (Option.some.inj (hfirst.1.symm.trans h.1))
  by_cases hap : a = p
  · subst hap
    rw [if_pos rfl]
    constructor
    · rintro ⟨k, hk, -, hfirst, hlast⟩
      obtain rfl : k = n := by
        have hle := hlast n (Nat.lt_succ_self n) q hpq h
        omega
      exact (hnames a b hfirst).2
    · rintro rfl
      exact ⟨n, Nat.lt_succ_self n, hpq, h, fun l hl _ _ _ => Nat.le_of_lt_succ hl⟩
  · rw [if_neg hap]
    exact renamedLast_succ (fun c _ hfirst => hap (hnames a c hfirst).1) b

theorem filterMap_foundAt?_succ : (List.range (n + 1)).filterMap (foundAt? o places) =
    (List.range n).filterMap (foundAt? o places) ++ (foundAt? o places n).toList := by
  rw [List.range_succ, List.filterMap_append]
  cases hfound : foundAt? o places n <;> simp [hfound]

theorem tells_zero (o : Operation) (places : Nat → Option (Parameter × Parameter)) :
    Tells o places 0 {} where
  seen := by simp
  renames := by
    intro a b
    constructor
    · exact nofun
    · rintro ⟨k, hk, -⟩
      exact absurd hk (Nat.not_lt_zero k)
  refactorings := rfl

namespace Tells

/-- A position without a new renaming. -/
theorem pass (h : Tells o places n scan)
    (hold : ∀ names, names.1 ≠ names.2 → ¬ FirstAt places names n) :
    Tells o places (n + 1)
      { scan with found.refactorings :=
          scan.found.refactorings ++ (foundAt? o places n).toList } where
  seen := by
    intro names
    rw [h.seen]
    refine and_congr_right fun hne => ⟨?_, ?_⟩
    · rintro ⟨k, hk, hnames⟩
      exact ⟨k, Nat.lt_succ_of_lt hk, hnames⟩
    · rintro ⟨k, hk, hnames⟩
      rcases Nat.lt_succ_iff_lt_or_eq.mp hk with hlt | rfl
      · exact ⟨k, hlt, hnames⟩
      · -- Names at this position that are no new renaming have stood before.
        have hbefore : ¬ ∀ j < k, (places j).map namesOf ≠ some names :=
          fun hall => hold names hne ⟨hnames, hall⟩
        simpa using hbefore
  renames := by
    intro a b
    rw [renamedLast_succ (fun c hac => hold (a, c) hac) b]
    exact h.renames a b
  refactorings := by rw [filterMap_foundAt?_succ, ← h.refactorings]

/-- A position with a new renaming. -/
theorem rename (h : Tells o places n scan) {p q : String} (hpq : p ≠ q)
    (hfirst : FirstAt places (p, q) n) :
    Tells o places (n + 1)
      { seen := scan.seen ++ [(p, q)]
        found :=
          { renames := scan.found.renames.insert p q
            refactorings := scan.found.refactorings ++ (foundAt? o places n).toList } } where
  seen := by
    intro names
    rw [List.mem_append, h.seen, List.mem_singleton]
    constructor
    · rintro (⟨hne, k, hk, hnames⟩ | rfl)
      · exact ⟨hne, k, Nat.lt_succ_of_lt hk, hnames⟩
      · exact ⟨hpq, n, Nat.lt_succ_self n, hfirst.1⟩
    · rintro ⟨hne, k, hk, hnames⟩
      rcases Nat.lt_succ_iff_lt_or_eq.mp hk with hlt | rfl
      · exact .inl ⟨hne, k, hlt, hnames⟩
      · exact .inr (Option.some.inj (hnames.symm.trans hfirst.1))
  renames := by
    intro a b
    rw [renamedLast_succ_of_first hpq hfirst, TextMap.get?_insert]
    by_cases hap : a = p
    · rw [if_pos hap, if_pos hap, Option.some.injEq, eq_comm]
    · rw [if_neg hap, if_neg hap]
      exact h.renames a b
  refactorings := by rw [filterMap_foundAt?_succ, ← h.refactorings]

/-- A renaming is new if it has not been seen. -/
theorem firstAt_iff (h : Tells o places n scan) (hplace : places n = some place)
    (hne : place.1.name ≠ place.2.name) :
    FirstAt places (namesOf place) n ↔ namesOf place ∉ scan.seen := by
  rw [h.seen]
  constructor
  · rintro ⟨-, hbefore⟩ ⟨-, k, hk, hnames⟩
    exact hbefore k hk hnames
  · intro hunseen
    refine ⟨by rw [hplace, Option.map_some], fun j hj hnames => ?_⟩
    exact hunseen ⟨hne, j, hj, hnames⟩

/-- **One position of the scan.** -/
theorem step (h : Tells o places n scan) (hplace : places n = some place) :
    Tells o places (n + 1) (ParameterScan.step o scan place) := by
  have hnames : ∀ names, FirstAt places names n → names = namesOf place := by
    intro names hfirst
    have hhere := hfirst.1
    rw [hplace, Option.map_some] at hhere
    exact (Option.some.inj hhere).symm
  have hfound : foundAt? o places n =
      if place.1.name ≠ place.2.name then
        if FirstAt places (namesOf place) n then some (.renameParameter place.1 place.2 o) else none
      else if place.1.type != place.2.type then some (.changeParameterType place.1 place.2 o)
      else none := by
    rw [foundAt?, hplace, Option.bind_some]
  unfold ParameterScan.step
  dsimp only
  by_cases hname : place.1.name = place.2.name
  · have hpass := h.pass fun names hne hfirst => hne (by rw [hnames names hfirst]; exact hname)
    rw [hfound, if_neg (not_not_intro hname)] at hpass
    rw [if_neg (not_not_intro hname)]
    by_cases htype : (place.1.type != place.2.type) = true
    · rw [if_pos htype] at hpass ⊢
      exact hpass
    · rw [if_neg htype, Option.toList_none, List.append_nil] at hpass
      rw [if_neg htype]
      exact hpass
  · rw [if_pos hname]
    by_cases hseen : namesOf place ∈ scan.seen
    · have hold : ¬ FirstAt places (namesOf place) n := fun hfirst =>
        (h.firstAt_iff hplace hname).mp hfirst hseen
      have hpass := h.pass fun names _ hfirst => hold (hnames names hfirst ▸ hfirst)
      rw [hfound, if_pos hname, if_neg hold, Option.toList_none, List.append_nil] at hpass
      have hcontains : scan.seen.contains (place.1.name, place.2.name) = true :=
        List.contains_iff_mem.mpr hseen
      rw [if_pos hcontains]
      exact hpass
    · have hfirst := (h.firstAt_iff hplace hname).mpr hseen
      have hrename := h.rename hname hfirst
      rw [hfound, if_pos hname, if_pos hfirst] at hrename
      have hcontains : ¬ scan.seen.contains (place.1.name, place.2.name) = true := fun hmem =>
        hseen (List.contains_iff_mem.mp hmem)
      rw [if_neg hcontains]
      exact hrename

end Tells

/-- **The scan of the first `n` positions.** -/
theorem tells_scan (o : Operation) (places : Nat → Option (Parameter × Parameter)) (n : Nat) :
    Tells o places n (((List.range n).filterMap places).foldl (ParameterScan.step o) {}) := by
  induction n with
  | zero => exact tells_zero o places
  | succ n ih =>
    rw [List.range_succ, List.filterMap_append, List.foldl_append]
    cases hplace : places n with
    | none =>
      have hpass := ih.pass fun names _ hfirst => by
        have hhere := hfirst.1
        rw [hplace] at hhere
        cases hhere
      rw [foundAt?, hplace, Option.bind_none, Option.toList_none, List.append_nil] at hpass
      rw [List.filterMap_cons_none hplace]
      exact hpass
    | some place =>
      rw [List.filterMap_cons_some hplace]
      exact ih.step hplace

end

/-! ## The positions of two operations -/

theorem placeAt?_eq_some_iff {old new : Operation} {k : Nat} {place : Parameter × Parameter} :
    placeAt? old new k = some place ↔
      (old.parameters[k]? = some place.1 ∧ new.parameters[k]? = some place.2) ∧
        ¬ (k = 0 ∧ Language.ofPath? old.location.file = some .python ∧ place.1.name = "self" ∧
          place.2.name = "self") := by
  obtain ⟨before, after⟩ := place
  unfold placeAt?
  cases old.parameters[k]? with
  | none => simp
  | some p =>
    cases new.parameters[k]? with
    | none => simp
    | some q =>
      simp only [Option.bind_some, Option.ite_none_left_eq_some, Option.some.injEq, Prod.mk.injEq]
      constructor
      · rintro ⟨hkept, rfl, rfl⟩
        exact ⟨⟨rfl, rfl⟩, hkept⟩
      · rintro ⟨⟨rfl, rfl⟩, hkept⟩
        exact ⟨hkept, rfl, rfl⟩

theorem sharesReceiver_iff {old new : Operation} : sharesReceiver old new = true ↔
    Language.ofPath? old.location.file = some .python ∧
      ∃ before after, old.parameters[0]? = some before ∧ new.parameters[0]? = some after ∧
        before.name = "self" ∧ after.name = "self" := by
  unfold sharesReceiver
  rw [List.head?_eq_getElem?, List.head?_eq_getElem?]
  simp only [Bool.and_eq_true, beq_iff_eq, Option.map_eq_some_iff]
  constructor
  · rintro ⟨⟨hpython, before, hbefore, hself⟩, after, hafter, hself'⟩
    exact ⟨hpython, before, after, hbefore, hafter, hself, hself'⟩
  · rintro ⟨hpython, before, after, hbefore, hafter, hself, hself'⟩
    exact ⟨⟨hpython, before, hbefore, hself⟩, after, hafter, hself'⟩

theorem placeAt?_zero {old new : Operation} (h : sharesReceiver old new = true) :
    placeAt? old new 0 = none := by
  obtain ⟨hpython, before, after, hbefore, hafter, hself, hself'⟩ := sharesReceiver_iff.mp h
  rw [placeAt?, hbefore, hafter, Option.bind_some, Option.bind_some,
    if_pos ⟨rfl, hpython, hself, hself'⟩]

/-- At any other position nothing is left out. -/
theorem placeAt?_eq_getElem? {old new : Operation} {k : Nat}
    (h : k = 0 → sharesReceiver old new = false) :
    placeAt? old new k = (old.parameters.zip new.parameters)[k]? := by
  refine Option.ext fun place => ?_
  rw [placeAt?_eq_some_iff, List.getElem?_zip_eq_some]
  refine and_iff_left_of_imp ?_
  rintro ⟨hbefore, hafter⟩ ⟨rfl, hpython, hself, hself'⟩
  have hshared : sharesReceiver old new = true :=
    sharesReceiver_iff.mpr ⟨hpython, place.1, place.2, hbefore, hafter, hself, hself'⟩
  rw [h rfl] at hshared
  cases hshared

/-- The aligned parameters are those at the positions, in order. -/
theorem filterMap_placeAt? (old new : Operation) :
    (List.range (min old.parameters.length new.parameters.length)).filterMap (placeAt? old new) =
      alignedParameters old new := by
  rw [← List.length_zip, alignedParameters]
  by_cases hshared : sharesReceiver old new = true
  · rw [if_pos hshared]
    have hlater : ∀ k, placeAt? old new (k + 1) = (old.parameters.zip new.parameters)[k + 1]? :=
      fun k => placeAt?_eq_getElem? nofun
    cases hzip : old.parameters.zip new.parameters with
    | nil => rfl
    | cons first rest =>
      rw [hzip] at hlater
      rw [List.length_cons, List.range_succ_eq_map,
        List.filterMap_cons_none (placeAt?_zero hshared), List.filterMap_map]
      exact (List.filterMap_congr fun k _ => hlater k).trans (Alignment.elementsAt_range rest)
  · rw [if_neg hshared, List.drop_zero]
    have hall : placeAt? old new = ((old.parameters.zip new.parameters)[·]?) :=
      funext fun k => placeAt?_eq_getElem? fun _ => Bool.eq_false_iff.mpr hshared
    rw [hall]
    exact Alignment.elementsAt_range _

theorem lt_of_firstAt {old new : Operation} {names : String × String} {k : Nat}
    (h : FirstAt (placeAt? old new) names k) :
    k < min old.parameters.length new.parameters.length := by
  obtain ⟨place, hplace, -⟩ := Option.map_eq_some_iff.mp h.1
  obtain ⟨⟨hbefore, hafter⟩, -⟩ := placeAt?_eq_some_iff.mp hplace
  exact Nat.lt_min.mpr
    ⟨(List.getElem?_eq_some_iff.mp hbefore).1, (List.getElem?_eq_some_iff.mp hafter).1⟩

/-! ## The comparison -/

namespace ParameterMapping

/-- **Parameters are compared position by position.** What is found is what each position tells, in
order, and then the parameters that the new operation has beyond the old one's number. A name is
mapped to another exactly if the two are the renaming of that name whose first position comes
last. -/
theorem between_by_position (old new : Operation) :
    (between old new).refactorings =
        (List.range (min old.parameters.length new.parameters.length)).filterMap
            (foundAt? new (placeAt? old new)) ++
          (new.parameters.drop old.parameters.length).map (Refactoring.addParameter · new) ∧
      ∀ a b, (between old new).renames.get? a = some b ↔
        ∃ k, a ≠ b ∧ FirstAt (placeAt? old new) (a, b) k ∧
          ∀ l c, a ≠ c → FirstAt (placeAt? old new) (a, c) l → l ≤ k := by
  have htells := tells_scan new (placeAt? old new)
    (min old.parameters.length new.parameters.length)
  rw [filterMap_placeAt?] at htells
  refine ⟨congrArg (· ++ _) htells.refactorings, fun a b => (htells.renames a b).trans ?_⟩
  constructor
  · rintro ⟨k, -, hab, hfirst, hlast⟩
    exact ⟨k, hab, hfirst, fun l c hac hother => hlast l (lt_of_firstAt hother) c hac hother⟩
  · rintro ⟨k, hab, hfirst, hlast⟩
    exact ⟨k, lt_of_firstAt hfirst, hab, hfirst, fun l _ c hac hother => hlast l c hac hother⟩

/-- A method with parameters of the given names and types. -/
def methodOf (parameters : List (String × String)) : Operation :=
  let location : Location :=
    ⟨"ui.py", ⟨2, 0⟩, ⟨2, 7⟩, .methodDeclaration, by decide, by decide⟩
  { name := "draw"
    location := location
    parameters := parameters.map fun parameter =>
      { name := parameter.1, type := .named parameter.2, location := location } }

/-- The name `a` stands at three positions and becomes `b`, `c` and `b` again. The third is no new
renaming, so `c` is the last one. The type of `self` does not count. -/
theorem between_by_position_repeated :
    let old := methodOf [("self", "A"), ("a", "int"), ("a", "int"), ("a", "int"), ("d", "int")]
    let new := methodOf
      [("self", "B"), ("b", "int"), ("c", "int"), ("b", "int"), ("d", "long"), ("e", "int")]
    (between old new).refactorings.map Refactoring.kind =
        [.renameParameter, .renameParameter, .changeParameterType, .addParameter] ∧
      placeAt? old new 0 = none ∧ (between old new).renames.get? "a" = some "c" ∧
      FirstAt (placeAt? old new) ("a", "b") 1 ∧
      ∃ k, FirstAt (placeAt? old new) ("a", "c") k ∧ 1 ≤ k := by
  intro old new
  obtain ⟨hrefactorings, hrenames⟩ := between_by_position old new
  have hfirst : FirstAt (placeAt? old new) ("a", "b") 1 := by decide +kernel
  have hrenamed : (between old new).renames.get? "a" = some "c" := by decide +kernel
  obtain ⟨k, -, hlast, hlater⟩ := (hrenames "a" "c").mp hrenamed
  refine ⟨?_, placeAt?_zero (by decide +kernel), hrenamed, hfirst, k, hlast,
    hlater 1 "b" (by decide) hfirst⟩
  rw [hrefactorings]
  decide +kernel

end ParameterMapping

end Refactor.Diff
