import Signatures.Catalog.Basic

/-!
# Catalogs that come from adding extensions

Adding an extension checks it against the built-in types, the wildcards and the extensions added
before. So in every catalog that comes from such steps the extensions are valid and their names are
distinct, every known name is an identifier, and an extension is what its name means.
-/

namespace Signatures

/-- What holds of an extension by itself in every catalog. -/
structure Extension.Valid (ext : Extension) : Prop where
  isIdentifier_name : Text.isIdentifier ext.name.toList = true
  shortName_ne_empty : ext.shortName ≠ ""
  not_wildcard : isWildcard ext.name = false
  not_builtin : Builtin.find? ext.name = none
  min_le_max : ∀ max, ext.maxArgs = some max → ext.minArgs ≤ max
  no_args_of_empty : ext.argKind = .empty → ext.minArgs = 0 ∧ ext.maxArgs = some 0

namespace Builtin

theorem isIdentifier_name : ∀ type ∈ table, Text.isIdentifier type.name.toList = true := by decide

theorem find?_name : ∀ type ∈ table, find? type.name = some type := by decide

theorem mem_of_find? {name : String} {type : Builtin} (h : find? name = some type) :
    type ∈ table ∧ type.name = name := by
  refine ⟨List.mem_of_find?_eq_some h, ?_⟩
  have hname := List.find?_some h
  exact beq_iff_eq.mp hname

end Builtin

theorem isIdentifier_of_isWildcard {name : String} (h : isWildcard name = true) :
    Text.isIdentifier name.toList = true := by
  rw [isWildcard] at h
  split at h
  · next label hname =>
    rw [hname, Text.isIdentifier, Bool.and_eq_true, List.all_eq_true]
    refine ⟨by decide, ?_⟩
    intro c hc
    rcases List.mem_cons.mp hc with rfl | hc
    · decide
    rcases List.mem_cons.mp hc with rfl | hc
    · decide
    · rw [Text.isIdentRest, List.all_eq_true.mp h c hc, Bool.true_or]
  · cases h

namespace Catalog

inductive Reachable : Catalog → Prop where
  | builtin : Reachable builtin
  | add {catalog next : Catalog} {ext : Extension} (h : Reachable catalog)
      (hadd : catalog.add ext = .ok next) : Reachable next

structure Valid (catalog : Catalog) : Prop where
  valid : ∀ ext ∈ catalog.extensions, ext.Valid
  nodup_names : (catalog.extensions.map Extension.name).Nodup

theorem fault?_eq_none_iff {taken : String → Bool} {ext : Extension} :
    fault? taken ext = none ↔ ext.Valid ∧ taken ext.name = false := by
  constructor
  · intro h
    rw [fault?] at h
    split at h
    · cases h
    split at h
    · cases h
    split at h
    · cases h
    split at h
    · cases h
    split at h
    · cases h
    split at h
    · cases h
    next hname hshort hshadow htaken hmax hempty =>
    have hle : ∀ max, ext.maxArgs = some max → ext.minArgs ≤ max := by
      intro max hmax'
      simpa [hmax'] using hmax
    refine ⟨⟨by simpa using hname, by simpa using hshort, ?_, ?_, hle, ?_⟩, by simpa using htaken⟩
    · simp at hshadow
      exact hshadow.1
    · simp at hshadow
      exact hshadow.2
    · intro hkind
      have hnone : ext.maxArgs = some 0 := by simpa [hkind] using hempty
      exact ⟨by simpa using hle 0 hnone, hnone⟩
  · rintro ⟨⟨hname, hshort, hwild, hbuiltin, hle, hempty⟩, htaken⟩
    have hmax : ext.maxArgs.any (· < ext.minArgs) = false := by
      cases hargs : ext.maxArgs with
      | none => rfl
      | some max => simpa using hle max hargs
    have hcount : ¬ (ext.argKind = .empty ∧ ext.maxArgs ≠ some 0) := by
      rintro ⟨hkind, hne⟩
      exact hne (hempty hkind).2
    simp [fault?, hname, hshort, hwild, hbuiltin, htaken, hmax, hcount]

theorem extension?_eq_none_iff {catalog : Catalog} {name : String} :
    catalog.extension? name = none ↔ ∀ ext ∈ catalog.extensions, ext.name ≠ name := by
  simp [extension?]

/-- An extension is accepted exactly when it is valid and its name is new, and then it stands at the
end. -/
theorem add_eq_ok_iff {catalog next : Catalog} {ext : Extension} :
    catalog.add ext = .ok next ↔
      ext.Valid ∧ (∀ other ∈ catalog.extensions, other.name ≠ ext.name) ∧
        next = ⟨catalog.extensions ++ [ext]⟩ := by
  have hiff := @fault?_eq_none_iff (fun name => (catalog.extension? name).isSome) ext
  rw [Option.isSome_eq_false_iff, Option.isNone_iff_eq_none, extension?_eq_none_iff] at hiff
  rw [Catalog.add]
  constructor
  · intro h
    split at h
    · cases h
    · next hfault =>
      cases h
      exact ⟨(hiff.mp hfault).1, (hiff.mp hfault).2, rfl⟩
  · rintro ⟨hvalid, hnew, rfl⟩
    rw [hiff.mpr ⟨hvalid, hnew⟩]

theorem valid_builtin : builtin.Valid := ⟨by simp [builtin], by simp [builtin]⟩

theorem Valid.add {catalog next : Catalog} {ext : Extension} (h : catalog.Valid)
    (hadd : catalog.add ext = .ok next) : next.Valid := by
  rcases add_eq_ok_iff.mp hadd with ⟨hvalid, hnew, rfl⟩
  constructor
  · intro other hmem
    rcases List.mem_append.mp hmem with hmem | hmem
    · exact h.valid other hmem
    · rw [List.mem_singleton.mp hmem]
      exact hvalid
  · rw [List.map_append, List.nodup_append]
    refine ⟨h.nodup_names, by simp, ?_⟩
    intro name hmem name' hmem'
    rcases List.mem_map.mp hmem with ⟨other, hother, rfl⟩
    rcases List.mem_map.mp hmem' with ⟨ext', hext', rfl⟩
    rw [List.mem_singleton.mp hext']
    exact hnew other hother

theorem Reachable.valid {catalog : Catalog} (h : catalog.Reachable) : catalog.Valid := by
  induction h with
  | builtin => exact valid_builtin
  | add h hadd ih => exact ih.add hadd

theorem Reachable.addAll {exts : List Extension} {catalog next : Catalog} (h : catalog.Reachable)
    (hadd : catalog.addAll exts = .ok next) : next.Reachable := by
  induction exts generalizing catalog with
  | nil =>
    cases hadd
    exact h
  | cons ext exts ih =>
    rw [Catalog.addAll] at hadd
    split at hadd
    · cases hadd
    · next hext => exact ih (h.add hext) hadd

/-- What a catalog says about a name comes from a built-in type, an extension or the wildcard. -/
inductive Meaning (catalog : Catalog) (name : String) : Entry → Prop where
  | builtin (type : Builtin) (h : type ∈ Builtin.table) (hname : type.name = name) :
      Meaning catalog name type.entry
  | extension (ext : Extension) (h : ext ∈ catalog.extensions) (hname : ext.name = name) :
      Meaning catalog name ext.entry
  | wildcard (h : isWildcard name = true) : Meaning catalog name ⟨"any", .any, .none⟩

theorem meaning_of_lookup? {catalog : Catalog} {name : String} {entry : Entry}
    (h : catalog.lookup? name = some entry) : catalog.Meaning name entry := by
  rw [lookup?] at h
  split at h
  · next type hfind =>
    cases h
    rcases Builtin.mem_of_find? hfind with ⟨hmem, hname⟩
    exact .builtin type hmem hname
  split at h
  · next ext hfind =>
    cases h
    have hname := List.find?_some hfind
    exact .extension ext (List.mem_of_find?_eq_some hfind) (beq_iff_eq.mp hname)
  split at h
  · next hwild =>
    cases h
    exact .wildcard hwild
  · cases h

theorem lookup?_builtin (catalog : Catalog) {type : Builtin} (h : type ∈ Builtin.table) :
    catalog.lookup? type.name = some type.entry := by
  rw [lookup?, Builtin.find?_name type h]

theorem Valid.extension?_name {catalog : Catalog} (h : catalog.Valid) {ext : Extension}
    (hmem : ext ∈ catalog.extensions) : catalog.extension? ext.name = some ext := by
  have hnodup := h.nodup_names
  rw [extension?]
  generalize catalog.extensions = exts at hmem hnodup
  induction exts with
  | nil => cases hmem
  | cons first exts ih =>
    rw [List.map_cons, List.nodup_cons] at hnodup
    rcases List.mem_cons.mp hmem with rfl | hmem
    · simp
    · have hne : first.name ≠ ext.name := by
        intro heq
        exact hnodup.1 (heq ▸ List.mem_map_of_mem hmem)
      rw [List.find?_cons_of_neg (by simpa using hne)]
      exact ih hmem hnodup.2

theorem Valid.lookup?_extension {catalog : Catalog} (h : catalog.Valid) {ext : Extension}
    (hmem : ext ∈ catalog.extensions) : catalog.lookup? ext.name = some ext.entry := by
  rw [lookup?, (h.valid ext hmem).not_builtin, h.extension?_name hmem]

theorem Valid.isIdentifier_of_knows {catalog : Catalog} (h : catalog.Valid) {name : String}
    (hknown : catalog.knows name = true) : Text.isIdentifier name.toList = true := by
  rcases Option.isSome_iff_exists.mp hknown with ⟨entry, hentry⟩
  cases meaning_of_lookup? hentry with
  | builtin type hmem hname => exact hname ▸ Builtin.isIdentifier_name type hmem
  | extension ext hmem hname => exact hname ▸ (h.valid ext hmem).isIdentifier_name
  | wildcard hwild => exact isIdentifier_of_isWildcard hwild

def points : Catalog := ⟨[⟨"point", "pt", 2, some 2, .integer⟩]⟩

theorem reachable_points : points.Reachable := by
  have hadd : builtin.addAll [⟨"point", "pt", 2, some 2, .integer⟩] = .ok points := rfl
  exact Reachable.builtin.addAll hadd

end Catalog

end Signatures
