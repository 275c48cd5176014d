import Signatures.Parse
import Signatures.Proofs.Catalog.Reachable

/-!
# Catalogs of lists of extensions

A list of extensions makes a catalog exactly if each of them is valid and no two have the same name, and the
fault of any other list is that of its first extension which is not valid or has the name of an earlier one.
What a catalog says about a name is found by the name alone. So the same extensions in another order make a
catalog that means the same by every text and every type expression.
-/

namespace Signatures

namespace Catalog

/-- Why an extension is refused where the extensions before it have the `taken` names. A fault is reported
only if none of those above it is there. -/
inductive Refused (taken : List String) (ext : Extension) : CatalogFault → Prop where
  | invalidName (h : Text.isIdentifier ext.name.toList = false) :
      Refused taken ext (.invalidName ext.name)
  | emptyShortName (hname : Text.isIdentifier ext.name.toList = true) (h : ext.shortName = "") :
      Refused taken ext (.emptyShortName ext.name)
  | shadowsBuiltin (hname : Text.isIdentifier ext.name.toList = true) (hshort : ext.shortName ≠ "")
      (h : isWildcard ext.name = true ∨ ∃ type, Builtin.find? ext.name = some type) :
      Refused taken ext (.shadowsBuiltin ext.name)
  | definedTwice (hname : Text.isIdentifier ext.name.toList = true) (hshort : ext.shortName ≠ "")
      (hwild : isWildcard ext.name = false) (hbuiltin : Builtin.find? ext.name = none)
      (h : ext.name ∈ taken) : Refused taken ext (.definedTwice ext.name)
  | maxBelowMin (hname : Text.isIdentifier ext.name.toList = true) (hshort : ext.shortName ≠ "")
      (hwild : isWildcard ext.name = false) (hbuiltin : Builtin.find? ext.name = none)
      (hnew : ext.name ∉ taken) {max : UInt64} (hmax : ext.maxArgs = some max) (h : max < ext.minArgs) :
      Refused taken ext (.maxBelowMin ext.name)
  | countWithoutArgs (hname : Text.isIdentifier ext.name.toList = true) (hshort : ext.shortName ≠ "")
      (hwild : isWildcard ext.name = false) (hbuiltin : Builtin.find? ext.name = none)
      (hnew : ext.name ∉ taken) (hmax : ∀ max, ext.maxArgs = some max → ext.minArgs ≤ max)
      (hkind : ext.argKind = .empty) (h : ext.maxArgs ≠ some 0) :
      Refused taken ext (.countWithoutArgs ext.name)

variable {catalog next : Catalog} {ext : Extension} {exts : List Extension} {fault : CatalogFault}

section Adding

theorem refused_of_fault? {taken : String → Bool} {names : List String}
    (htaken : taken ext.name = true ↔ ext.name ∈ names) (h : fault? taken ext = some fault) :
    Refused names ext fault := by
  -- The checks come in the order of the constructors, and what each of them leaves is kept for the next.
  unfold fault? at h
  split at h
  · next hname =>
    cases h
    exact .invalidName (by simpa using hname)
  next hname =>
  replace hname : Text.isIdentifier ext.name.toList = true := by simpa using hname
  split at h
  · next hshort =>
    cases h
    exact .emptyShortName hname (by simpa using hshort)
  next hshort =>
  replace hshort : ext.shortName ≠ "" := by simpa using hshort
  split at h
  · next hshadow =>
    cases h
    rw [Bool.or_eq_true, Option.isSome_iff_exists] at hshadow
    exact .shadowsBuiltin hname hshort hshadow
  next hshadow =>
  rw [Bool.or_eq_true, not_or, Bool.not_eq_true, Bool.not_eq_true, Option.isSome_eq_false_iff,
    Option.isNone_iff_eq_none] at hshadow
  split at h
  · next hmem =>
    cases h
    exact .definedTwice hname hshort hshadow.1 hshadow.2 (htaken.mp hmem)
  next hmem =>
  rw [htaken] at hmem
  split at h
  · next hany =>
    cases h
    cases hmax : ext.maxArgs with
    | none => simp [hmax] at hany
    | some max => exact .maxBelowMin hname hshort hshadow.1 hshadow.2 hmem hmax (by simpa [hmax] using hany)
  next hany =>
  split at h
  · next hempty =>
    cases h
    refine .countWithoutArgs hname hshort hshadow.1 hshadow.2 hmem ?_ hempty.1 hempty.2
    intro max hmax
    simpa [hmax] using hany
  · cases h

theorem Refused.fault?_eq {taken : String → Bool} {names : List String} (h : Refused names ext fault)
    (htaken : taken ext.name = true ↔ ext.name ∈ names) : fault? taken ext = some fault := by
  cases h with
  | invalidName h => simp [fault?, h]
  | emptyShortName hname h => simp [fault?, hname, h]
  | shadowsBuiltin hname hshort h =>
    have hshadow : (isWildcard ext.name || (Builtin.find? ext.name).isSome) = true := by
      rwa [Bool.or_eq_true, Option.isSome_iff_exists]
    simp [fault?, hname, hshort, hshadow]
  | definedTwice hname hshort hwild hbuiltin h =>
    simp [fault?, hname, hshort, hwild, hbuiltin, htaken.mpr h]
  | maxBelowMin hname hshort hwild hbuiltin hnew hmax h =>
    rw [← htaken, Bool.not_eq_true] at hnew
    simp [fault?, hname, hshort, hwild, hbuiltin, hnew, hmax, h]
  | countWithoutArgs hname hshort hwild hbuiltin hnew hmax hkind h =>
    rw [← htaken, Bool.not_eq_true] at hnew
    have hany : ext.maxArgs.any (· < ext.minArgs) = false := by
      cases hargs : ext.maxArgs with
      | none => rfl
      | some max => simpa using hmax max hargs
    simp [fault?, hname, hshort, hwild, hbuiltin, hnew, hany, hkind, h]

/-- Adding an extension fails exactly with the fault for which it is refused. -/
theorem add_eq_error_iff :
    catalog.add ext = .error fault ↔ Refused (catalog.extensions.map Extension.name) ext fault := by
  have htaken : (catalog.extension? ext.name).isSome = true ↔
      ext.name ∈ catalog.extensions.map Extension.name := by
    simp [extension?]
  constructor
  · intro h
    rw [add] at h
    split at h
    · next hfault =>
      cases h
      exact refused_of_fault? htaken hfault
    · cases h
  · intro h
    rw [add, h.fault?_eq htaken]

theorem Refused.not_valid_or_mem {taken : List String} (h : Refused taken ext fault) :
    ¬ ext.Valid ∨ ext.name ∈ taken := by
  by_cases hmem : ext.name ∈ taken
  · exact .inr hmem
  · apply Or.inl
    intro hvalid
    have hfault : fault? (fun name => decide (name ∈ taken)) ext = some fault :=
      h.fault?_eq decide_eq_true_iff
    rw [fault?_eq_none_iff.mpr ⟨hvalid, decide_eq_false hmem⟩] at hfault
    cases hfault

end Adding

section Lists

theorem Valid.of_append {first rest : List Extension} (h : Valid ⟨first ++ rest⟩) : Valid ⟨first⟩ := by
  constructor
  · intro ext hmem
    exact h.valid ext (List.mem_append_left rest hmem)
  · have hnodup := h.nodup_names
    rw [List.map_append] at hnodup
    exact (List.nodup_append.mp hnodup).1

/-- An extension is accepted exactly if the catalog with it is valid. -/
theorem Valid.add_eq_ok_iff (h : catalog.Valid) :
    catalog.add ext = .ok next ↔ next = ⟨catalog.extensions ++ [ext]⟩ ∧ next.Valid := by
  constructor
  · intro hadd
    exact ⟨(Catalog.add_eq_ok_iff.mp hadd).2.2, h.add hadd⟩
  · rintro ⟨rfl, hvalid⟩
    have hnodup := hvalid.nodup_names
    rw [List.map_append, List.nodup_append] at hnodup
    refine Catalog.add_eq_ok_iff.mpr ⟨hvalid.valid ext (by simp), ?_, rfl⟩
    intro other hmem
    exact hnodup.2.2 other.name (List.mem_map_of_mem hmem) ext.name (by simp)

theorem Valid.addAll_eq_ok_iff (h : catalog.Valid) :
    catalog.addAll exts = .ok next ↔ next = ⟨catalog.extensions ++ exts⟩ ∧ next.Valid := by
  induction exts generalizing catalog with
  | nil =>
    rw [addAll, List.append_nil]
    constructor
    · intro heq
      cases heq
      exact ⟨rfl, h⟩
    · rintro ⟨rfl, -⟩
      rfl
  | cons ext exts ih =>
    have hassoc : catalog.extensions ++ ext :: exts = catalog.extensions ++ [ext] ++ exts := by simp
    rw [addAll, hassoc]
    cases hadd : catalog.add ext with
    | ok mid =>
      rcases h.add_eq_ok_iff.mp hadd with ⟨rfl, hmid⟩
      exact ih hmid
    | error fault =>
      constructor
      · intro heq
        cases heq
      · rintro ⟨rfl, hvalid⟩
        rw [h.add_eq_ok_iff.mpr ⟨rfl, hvalid.of_append⟩] at hadd
        cases hadd

theorem addAll_append (catalog : Catalog) (first rest : List Extension) :
    catalog.addAll (first ++ rest) = (catalog.addAll first).bind (·.addAll rest) := by
  induction first generalizing catalog with
  | nil => rfl
  | cons ext first ih =>
    rw [List.cons_append, addAll, addAll]
    cases catalog.add ext with
    | error fault => rfl
    | ok mid => exact ih mid

theorem exists_refused_of_addAll (h : catalog.addAll exts = .error fault) :
    ∃ earlier ext later mid, exts = earlier ++ ext :: later ∧ catalog.addAll earlier = .ok mid ∧
      Refused (mid.extensions.map Extension.name) ext fault := by
  induction exts generalizing catalog with
  | nil => cases h
  | cons ext exts ih =>
    rw [addAll] at h
    cases hadd : catalog.add ext with
    | error found =>
      rw [hadd] at h
      cases h
      exact ⟨[], ext, exts, catalog, rfl, rfl, add_eq_error_iff.mp hadd⟩
    | ok mid =>
      rw [hadd] at h
      rcases ih h with ⟨earlier, refused, later, last, rfl, hearlier, hrefused⟩
      refine ⟨ext :: earlier, refused, later, last, rfl, ?_, hrefused⟩
      rw [addAll, hadd]
      exact hearlier

theorem ofExtensions_eq_ok_iff : ofExtensions exts = .ok catalog ↔ catalog = ⟨exts⟩ ∧ catalog.Valid :=
  valid_builtin.addAll_eq_ok_iff

theorem ofExtensions_eq_error_iff :
    ofExtensions exts = .error fault ↔ ∃ earlier ext later, exts = earlier ++ ext :: later ∧
      Valid ⟨earlier⟩ ∧ Refused (earlier.map Extension.name) ext fault := by
  constructor
  · intro h
    rcases exists_refused_of_addAll h with ⟨earlier, ext, later, mid, rfl, hearlier, hrefused⟩
    rcases ofExtensions_eq_ok_iff.mp hearlier with ⟨rfl, hvalid⟩
    exact ⟨earlier, ext, later, rfl, hvalid, hrefused⟩
  · rintro ⟨earlier, ext, later, rfl, hvalid, hrefused⟩
    have hearlier : builtin.addAll earlier = .ok ⟨earlier⟩ := ofExtensions_eq_ok_iff.mpr ⟨rfl, hvalid⟩
    have hadd : (⟨earlier⟩ : Catalog).add ext = .error fault := add_eq_error_iff.mpr hrefused
    rw [ofExtensions, addAll_append, hearlier, Except.bind, addAll, hadd]

end Lists

section Order

theorem Valid.of_perm {others : List Extension} (h : Valid ⟨exts⟩) (hperm : exts.Perm others) :
    Valid ⟨others⟩ := by
  constructor
  · intro ext hmem
    exact h.valid ext (hperm.mem_iff.mpr hmem)
  · exact (hperm.map Extension.name).nodup_iff.mp h.nodup_names

theorem Valid.extension?_eq_some_iff (h : catalog.Valid) {name : String} :
    catalog.extension? name = some ext ↔ ext ∈ catalog.extensions ∧ ext.name = name := by
  constructor
  · intro hfind
    exact ⟨List.mem_of_find?_eq_some hfind, by simpa using List.find?_some hfind⟩
  · rintro ⟨hmem, rfl⟩
    exact h.extension?_name hmem

def Agrees (next catalog : Catalog) : Prop := ∀ name, next.lookup? name = catalog.lookup? name

/-- The order of the extensions does not matter for what a catalog says. -/
theorem Valid.agrees_of_perm {others : List Extension} (h : Valid ⟨exts⟩) (hperm : exts.Perm others) :
    Agrees ⟨others⟩ ⟨exts⟩ := by
  intro name
  have hfind : extension? ⟨others⟩ name = extension? ⟨exts⟩ name := by
    apply Option.ext
    intro ext
    rw [(h.of_perm hperm).extension?_eq_some_iff, h.extension?_eq_some_iff, hperm.mem_iff]
  rw [lookup?, lookup?, hfind]

mutual

theorem Agrees.resolve_eq (h : next.Agrees catalog) : (expr : TypeExpr) →
    next.resolve expr = catalog.resolve expr
  | ⟨name, nullable, args⟩ => by rw [resolve, resolve, h name, h.outcomes_eq args]

theorem Agrees.outcomes_eq (h : next.Agrees catalog) : (args : List (Arg TypeExpr)) →
    next.outcomes args = catalog.outcomes args
  | [] => by rw [outcomes, outcomes]
  | .param value :: args => by rw [outcomes, outcomes, h.outcomes_eq args]
  | .type inner :: args => by rw [outcomes, outcomes, h.resolve_eq inner, h.outcomes_eq args]

end

theorem Agrees.parse_eq (h : next.Agrees catalog) (source : String) :
    next.parse source = catalog.parse source := by
  have hknows : next.knows = catalog.knows := by
    funext name
    rw [knows, knows, h name]
  rw [parse, parse, hknows]

end Order

/-- A list of extensions makes a catalog exactly if each of them is valid and their names are distinct, and
the catalog holds them in the same order. Otherwise the fault is that of the first one which is not valid or
has the name of an earlier one. The same extensions in any other order are accepted as well, and the two
catalogs give the same signatures, types, short names, rules and errors. -/
theorem ofExtensions_in_any_order (exts : List Extension) :
    (∀ catalog, ofExtensions exts = .ok catalog ↔
        (∀ ext ∈ exts, ext.Valid) ∧ (exts.map Extension.name).Nodup ∧ catalog.extensions = exts) ∧
      (∀ fault, ofExtensions exts = .error fault ↔
        ∃ earlier ext later, exts = earlier ++ ext :: later ∧
          (∀ other ∈ earlier, other.Valid) ∧ (earlier.map Extension.name).Nodup ∧
          (¬ ext.Valid ∨ ext.name ∈ earlier.map Extension.name) ∧
          Refused (earlier.map Extension.name) ext fault) ∧
      ∀ catalog others, ofExtensions exts = .ok catalog → exts.Perm others →
        ∃ next, ofExtensions others = .ok next ∧
          (∀ source, next.parse source = catalog.parse source) ∧
          (∀ expr, next.resolve expr = catalog.resolve expr) ∧
          ∀ name, next.shortName name = catalog.shortName name ∧
            next.ruleOf name = catalog.ruleOf name := by
  refine ⟨?_, ?_, ?_⟩
  · intro catalog
    rw [ofExtensions_eq_ok_iff]
    constructor
    · rintro ⟨rfl, hvalid⟩
      exact ⟨hvalid.valid, hvalid.nodup_names, rfl⟩
    · rintro ⟨hvalid, hnodup, rfl⟩
      exact ⟨rfl, hvalid, hnodup⟩
  · intro fault
    rw [ofExtensions_eq_error_iff]
    constructor
    · rintro ⟨earlier, ext, later, rfl, hvalid, hrefused⟩
      exact ⟨earlier, ext, later, rfl, hvalid.valid, hvalid.nodup_names,
        hrefused.not_valid_or_mem, hrefused⟩
    · rintro ⟨earlier, ext, later, rfl, hvalid, hnodup, -, hrefused⟩
      exact ⟨earlier, ext, later, rfl, ⟨hvalid, hnodup⟩, hrefused⟩
  · intro catalog others hok hperm
    rcases ofExtensions_eq_ok_iff.mp hok with ⟨rfl, hvalid⟩
    have hagrees := hvalid.agrees_of_perm hperm
    refine ⟨⟨others⟩, ofExtensions_eq_ok_iff.mpr ⟨rfl, hvalid.of_perm hperm⟩, hagrees.parse_eq,
      hagrees.resolve_eq, ?_⟩
    intro name
    exact ⟨by rw [shortName, shortName, hagrees name], by rw [ruleOf, ruleOf, hagrees name]⟩

/-- Points and boxes in both orders, and a second point behind them whose counts cannot be met either. -/
theorem ofExtensions_in_any_order_points :
    (∃ next, ofExtensions [⟨"box", "bx", 0, none, .type⟩, ⟨"point", "pt", 2, some 2, .integer⟩] = .ok next ∧
        next.shortName "point" = .ok "pt" ∧
        next.resolve ⟨"box", true, [.type ⟨"point", false, []⟩]⟩ =
          .error (.arity "point" (.count ⟨2, some 2, .integer⟩ 0))) ∧
      ofExtensions [⟨"point", "pt", 2, some 2, .integer⟩, ⟨"box", "bx", 0, none, .type⟩,
        ⟨"point", "p", 3, some 1, .type⟩] = .error (.definedTwice "point") := by
  have hok : ofExtensions [⟨"point", "pt", 2, some 2, .integer⟩, ⟨"box", "bx", 0, none, .type⟩] =
    .ok ⟨[⟨"point", "pt", 2, some 2, .integer⟩, ⟨"box", "bx", 0, none, .type⟩]⟩ := rfl
  have hvalid := ((ofExtensions_in_any_order _).1 _).mp hok
  rcases (ofExtensions_in_any_order _).2.2 _ _ hok (.swap _ _ []) with ⟨next, hnext, -, hresolve, hnames⟩
  have hrefused : Refused ["point", "box"] ⟨"point", "p", 3, some 1, .type⟩ (.definedTwice "point") :=
    .definedTwice (by decide) (by decide) (by decide) (by decide) (by decide)
  refine ⟨⟨next, hnext, ?_, ?_⟩, ?_⟩
  · rw [(hnames "point").1]
    rfl
  · rw [hresolve]
    rfl
  · exact ((ofExtensions_in_any_order _).2.1 _).mpr
      ⟨_, _, [], rfl, hvalid.1, hvalid.2.1, .inr (by decide), hrefused⟩

end Catalog

end Signatures
