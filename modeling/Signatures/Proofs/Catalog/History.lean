import Signatures.Catalog.History
import Signatures.Proofs.Catalog.Reachable
import Signatures.Resolve

/-!
# What holds in every history of a catalog

Whatever is done to a catalog, it stays one that comes from adding extensions to the built-in one. So its
extensions are valid and their names distinct, its names have no repetition, and with the wildcards they
are all that it knows.
-/

namespace Signatures.Catalog

variable {catalog next : Catalog} {ext : Extension}

theorem exists_ofExtensions_of_ofFile {source : String} (h : ofFile source = .ok next) :
    ∃ exts, ofExtensions exts = .ok next := by
  rw [ofFile] at h
  split at h
  · cases h
  · next exts rest hread =>
    split at h
    · cases h
    · next hexts =>
      cases h
      exact ⟨exts, hexts⟩

theorem eq_ok_of_mapError {ε φ α : Type} {f : ε → φ} {result : Except ε α} {value : α}
    (h : result.mapError f = .ok value) : result = .ok value := by
  cases result with
  | error error => cases h
  | ok found =>
    cases h
    rfl

/-- The catalog that an operation makes comes from adding extensions. -/
theorem Reachable.result (h : catalog.Reachable) {operation : Operation}
    (hresult : operation.result catalog = .ok next) : next.Reachable := by
  cases operation with
  | add ext => exact h.add (eq_ok_of_mapError hresult)
  | replace exts => exact Reachable.builtin.addAll (eq_ok_of_mapError hresult)
  | load source =>
    rcases exists_ofExtensions_of_ofFile hresult with ⟨exts, hexts⟩
    exact Reachable.builtin.addAll hexts

/-- An operation that is rejected leaves the catalog as it was, so what it leaves comes from adding
extensions in any case. -/
theorem Reachable.perform (h : catalog.Reachable) (operation : Operation) :
    (catalog.perform operation).2.Reachable := by
  rw [Catalog.perform]
  split
  · next hresult => exact h.result hresult
  · exact h

theorem Reachable.run (h : catalog.Reachable) (operations : List Operation) :
    (catalog.run operations).Reachable := by
  induction operations generalizing catalog with
  | nil => exact h
  | cons operation operations ih => exact ih (h.perform operation)

theorem perform_add (catalog : Catalog) (ext : Extension) :
    (ext.Valid ∧ (∀ other ∈ catalog.extensions, other.name ≠ ext.name) →
        catalog.perform (.add ext) = (none, ⟨catalog.extensions ++ [ext]⟩)) ∧
      (¬ (ext.Valid ∧ ∀ other ∈ catalog.extensions, other.name ≠ ext.name) →
        ∃ fault, catalog.perform (.add ext) = (some (.extension fault), catalog)) := by
  rw [perform, Operation.result]
  constructor
  · rintro ⟨hvalid, hnew⟩
    rw [add_eq_ok_iff.mpr ⟨hvalid, hnew, rfl⟩]
    rfl
  · intro hnot
    cases hadd : catalog.add ext with
    | error fault => exact ⟨fault, rfl⟩
    | ok next =>
      rcases add_eq_ok_iff.mp hadd with ⟨hvalid, hnew, -⟩
      exact absurd ⟨hvalid, hnew⟩ hnot

theorem Builtin.nodup_names : (Builtin.table.map Builtin.name).Nodup := by decide

/-- No name stands twice in a catalog whose extensions are valid. -/
theorem Valid.nodup_all_names (h : catalog.Valid) : catalog.names.Nodup := by
  rw [names, List.nodup_append]
  refine ⟨Builtin.nodup_names, h.nodup_names, ?_⟩
  intro name hbuiltin name' hext heq
  rcases List.mem_map.mp hbuiltin with ⟨type, htype, rfl⟩
  rcases List.mem_map.mp hext with ⟨ext, hmem, rfl⟩
  have hnone := (h.valid ext hmem).not_builtin
  rw [← heq, Builtin.find?_name type htype] at hnone
  cases hnone

theorem Valid.isSome_lookup?_iff (h : catalog.Valid) {name : String} :
    (catalog.lookup? name).isSome = true ↔ name ∈ catalog.names ∨ isWildcard name = true := by
  rw [names, List.mem_append, List.mem_map, List.mem_map]
  constructor
  · intro hsome
    rcases Option.isSome_iff_exists.mp hsome with ⟨entry, hentry⟩
    cases meaning_of_lookup? hentry with
    | builtin type hmem hname => exact .inl (.inl ⟨type, hmem, hname⟩)
    | extension ext hmem hname => exact .inl (.inr ⟨ext, hmem, hname⟩)
    | wildcard hwild => exact .inr hwild
  · rintro ((⟨type, hmem, rfl⟩ | ⟨ext, hmem, rfl⟩) | hwild)
    · rw [lookup?_builtin catalog hmem]
      rfl
    · rw [h.lookup?_extension hmem]
      rfl
    · rw [lookup?, hwild]
      split
      · rfl
      split <;> rfl

/-- After any operations on the built-in catalog the extensions are valid and have distinct names, so its
names have no repetition, it knows these and the wildcards, and the name of an extension means this
extension. One more extension is added at the end if it is valid and has a new name; otherwise it is
rejected and the catalog stays as it was. -/
theorem run_invariant (operations : List Operation) :
    (builtin.run operations).Valid ∧ (builtin.run operations).names.Nodup ∧
      (∀ name, ((builtin.run operations).lookup? name).isSome = true ↔
        name ∈ (builtin.run operations).names ∨ isWildcard name = true) ∧
      (∀ ext ∈ (builtin.run operations).extensions,
        (builtin.run operations).shortName ext.name = .ok ext.shortName ∧
          (builtin.run operations).ruleOf ext.name = .ok ext.rule) ∧
      ∀ ext,
        (ext.Valid ∧ (∀ other ∈ (builtin.run operations).extensions, other.name ≠ ext.name) →
          (builtin.run operations).perform (.add ext) =
            (none, ⟨(builtin.run operations).extensions ++ [ext]⟩)) ∧
        (¬ (ext.Valid ∧ ∀ other ∈ (builtin.run operations).extensions, other.name ≠ ext.name) →
          ∃ fault, (builtin.run operations).perform (.add ext) =
            (some (.extension fault), builtin.run operations)) := by
  generalize hrun : builtin.run operations = catalog
  have hvalid : catalog.Valid := hrun ▸ (Reachable.builtin.run operations).valid
  refine ⟨hvalid, hvalid.nodup_all_names, fun name => hvalid.isSome_lookup?_iff, ?_, perform_add catalog⟩
  intro ext hmem
  have hlookup := hvalid.lookup?_extension hmem
  exact ⟨by rw [shortName, hlookup]; rfl, by rw [ruleOf, hlookup]; rfl⟩

/-- An extension stays, those of the same name and of the name of a wildcard are rejected after it. -/
example : builtin.run [.add ⟨"point", "pt", 1, none, .mixed⟩, .add ⟨"point", "p", 0, none, .mixed⟩,
    .add ⟨"any1", "a", 0, none, .mixed⟩] = ⟨[⟨"point", "pt", 1, none, .mixed⟩]⟩ := by
  decide +kernel

end Signatures.Catalog
