import Signatures.Proofs.Listing.Line

/-!
# What a line of a listing gives

A line that is neither blank nor a comment lists the signature of its text, or fails with an error. On its
own a line that fails gives this error at its place in the listing; among the lines of a listing, one whose
canonical text a line before it has gives a warning.
-/

namespace Signatures

open Text

namespace Catalog

variable {catalog : Catalog} {text : String}

/-- The text is that of a signature which, if it is a type, resolves. -/
inductive Accepts (catalog : Catalog) (text : String) : Signature → Prop where
  | number {digits : String} (hparse : catalog.parse text = .ok (.number digits)) :
      Accepts catalog text (.number digits)
  | type {expr : TypeExpr} {t : ArgType} (hparse : catalog.parse text = .ok (.type expr))
      (hresolve : catalog.resolve expr = .ok t) : Accepts catalog text (.type expr)

/-- The text does not parse, or it is that of a type which does not resolve. -/
inductive Rejects (catalog : Catalog) (text : String) : Error → Prop where
  | parse {error : Error} (hparse : catalog.parse text = .error error) : Rejects catalog text error
  | resolve {expr : TypeExpr} {fault : ResolveFault} (hparse : catalog.parse text = .ok (.type expr))
      (hresolve : catalog.resolve expr = .error fault) : Rejects catalog text (.ofResolve fault)

theorem Accepts.parse {s : Signature} (h : catalog.Accepts text s) : catalog.parse text = .ok s := by
  cases h with
  | number hparse => exact hparse
  | type hparse hresolve => exact hparse

theorem accepts_or_rejects (catalog : Catalog) (text : String) :
    (∃ s, catalog.Accepts text s) ∨ ∃ error, catalog.Rejects text error := by
  cases hparse : catalog.parse text with
  | error error => exact .inr ⟨error, .parse hparse⟩
  | ok s =>
    cases s with
    | number digits => exact .inl ⟨_, .number hparse⟩
    | type expr =>
      cases hresolve : catalog.resolve expr with
      | error fault => exact .inr ⟨_, .resolve hparse hresolve⟩
      | ok t => exact .inl ⟨_, .type hparse hresolve⟩

theorem Accepts.canonical {s : Signature} (h : catalog.Accepts text s) :
    catalog.canonical text = .ok s.render := by
  cases h with
  | number hparse => simp [Catalog.canonical, hparse, Signature.render]
  | type hparse hresolve => simp [Catalog.canonical, hparse, hresolve, Signature.render]

theorem Rejects.canonical {error : Error} (h : catalog.Rejects text error) :
    catalog.canonical text = .error error := by
  cases h with
  | parse hparse => simp [Catalog.canonical, hparse]
  | resolve hparse hresolve => simp [Catalog.canonical, hparse, hresolve]

theorem Accepts.not_rejects {s : Signature} (h : catalog.Accepts text s) (error : Error) :
    ¬ catalog.Rejects text error := by
  intro hrejects
  have hcanonical := h.canonical
  rw [hrejects.canonical] at hcanonical
  cases hcanonical

theorem canonical_eq_ok_iff {canonical : String} :
    catalog.canonical text = .ok canonical ↔ ∃ s, catalog.Accepts text s ∧ s.render = canonical := by
  constructor
  · intro h
    rcases catalog.accepts_or_rejects text with ⟨s, hs⟩ | ⟨error, herror⟩
    · rw [hs.canonical] at h
      exact ⟨s, hs, Except.ok.inj h⟩
    · rw [herror.canonical] at h
      cases h
  · rintro ⟨s, hs, rfl⟩
    exact hs.canonical

theorem canonical_eq_error_iff {error : Error} :
    catalog.canonical text = .error error ↔ catalog.Rejects text error := by
  constructor
  · intro h
    rcases catalog.accepts_or_rejects text with ⟨s, hs⟩ | ⟨found, hfound⟩
    · rw [hs.canonical] at h
      cases h
    · rw [hfound.canonical] at h
      cases h
      exact hfound
  · exact Rejects.canonical

end Catalog

namespace Listing

/-- The text is neither blank nor a comment: its first visible character is not `#`. -/
def IsListed (text : List Char) : Prop :=
  ∃ blanks c rest, text = blanks ++ c :: rest ∧ (∀ b ∈ blanks, isBlank b = true) ∧ isBlank c = false ∧
    c ≠ '#'

theorem isSkipped_eq_false_iff {text : List Char} : isSkipped text = false ↔ IsListed text := by
  constructor
  · intro h
    unfold isSkipped at h
    split at h
    · cases h
    · next c rest htrim =>
      refine ⟨text.takeWhile isBlank, c, rest, ?_, ?_, ?_, by simpa using h⟩
      · rw [← htrim, trimLeft, List.takeWhile_append_dropWhile]
      · exact List.all_eq_true.mp List.all_takeWhile
      · have hhead := List.head?_dropWhile_not isBlank text
        rw [trimLeft] at htrim
        rw [htrim] at hhead
        exact hhead
  · rintro ⟨blanks, c, rest, rfl, hblanks, hc, hne⟩
    have htrim : trimLeft (blanks ++ c :: rest) = c :: rest := by
      rw [trimLeft, List.dropWhile_append_of_pos hblanks, List.dropWhile_cons_of_neg (by simp [hc])]
    simp [isSkipped, htrim, hne]

namespace Line

variable (catalog : Catalog) (filename : String) (line : Line)

def Lists (s : Signature) : Prop := IsListed line.text ∧ catalog.Accepts (String.ofList line.text) s

def Fails (error : Error) : Prop :=
  IsListed line.text ∧ catalog.Rejects (String.ofList line.text) error

/-- The canonical text or the error of a line that is not skipped. -/
def result? : Option (Except Error String) :=
  if isSkipped line.text then none else some (catalog.canonical (String.ofList line.text))

def error? : Option Error :=
  match line.result? catalog with
  | some (.error error) => some error
  | _ => none

def canonical? : Option String :=
  match line.result? catalog with
  | some (.ok canonical) => some canonical
  | _ => none

variable {catalog line}

theorem error?_eq_some_iff {error : Error} :
    line.error? catalog = some error ↔ line.Fails catalog error := by
  rw [Fails, ← isSkipped_eq_false_iff, ← Catalog.canonical_eq_error_iff, error?, result?]
  cases hskip : isSkipped line.text <;>
    cases catalog.canonical (String.ofList line.text) <;> simp

theorem canonical?_eq_some_iff {canonical : String} :
    line.canonical? catalog = some canonical ↔ ∃ s, line.Lists catalog s ∧ s.render = canonical := by
  simp only [Lists, ← isSkipped_eq_false_iff, and_assoc]
  rw [exists_and_left, ← Catalog.canonical_eq_ok_iff, canonical?, result?]
  cases hskip : isSkipped line.text <;>
    cases catalog.canonical (String.ofList line.text) <;> simp

variable (catalog line)

/-- The diagnostic of an error of the text of a line, at its place in the listing. -/
def errorDiagnostic (error : Error) : Diagnostic :=
  (error.diagnostic filename (String.ofList line.text)).shift line.offset

def first? (all : List Line) (canonical : String) : Option Line :=
  all.find? fun other => other.canonical? catalog == some canonical

def warning? (all : List Line) : Option Diagnostic :=
  (line.canonical? catalog).bind fun canonical =>
    ((first? catalog all canonical).filter fun first => first.number < line.number).map fun first =>
      duplicate filename canonical first.number (trimmedSpan line.offset line.text)

def diagnostic? (all : List Line) : Option Diagnostic :=
  match line.error? catalog with
  | some error => some (line.errorDiagnostic filename error)
  | none => line.warning? catalog filename all

variable {catalog filename line} {all : List Line}

theorem diagnostic?_of_skipped (h : line.result? catalog = none) :
    line.diagnostic? catalog filename all = none := by
  simp [diagnostic?, error?, warning?, canonical?, h]

theorem diagnostic?_of_error {error : Error} (h : line.result? catalog = some (.error error)) :
    line.diagnostic? catalog filename all = some (line.errorDiagnostic filename error) := by
  simp [diagnostic?, error?, h]

theorem diagnostic?_of_ok {canonical : String} (h : line.result? catalog = some (.ok canonical)) :
    line.diagnostic? catalog filename all =
      ((first? catalog all canonical).filter fun first => first.number < line.number).map fun first =>
        duplicate filename canonical first.number (trimmedSpan line.offset line.text) := by
  simp [diagnostic?, error?, warning?, canonical?, h]

theorem warning?_of_error? {error : Error} (h : line.error? catalog = some error) :
    line.warning? catalog filename all = none := by
  unfold error? at h
  split at h
  · next hresult => simp [warning?, canonical?, hresult]
  · cases h

theorem warning?_eq_some_iff_first? {warning : Diagnostic} :
    line.warning? catalog filename all = some warning ↔
      ∃ canonical first, line.canonical? catalog = some canonical ∧
        first? catalog all canonical = some first ∧ first.number < line.number ∧
        warning = duplicate filename canonical first.number (trimmedSpan line.offset line.text) := by
  simp only [warning?, Option.bind_eq_some_iff, Option.map_eq_some_iff, Option.filter_eq_some_iff,
    decide_eq_true_eq]
  constructor
  · rintro ⟨canonical, hcanonical, first, ⟨hfirst, hlt⟩, rfl⟩
    exact ⟨canonical, first, hcanonical, hfirst, hlt, rfl⟩
  · rintro ⟨canonical, first, hcanonical, hfirst, hlt, rfl⟩
    exact ⟨canonical, hcanonical, first, ⟨hfirst, hlt⟩, rfl⟩

theorem exists_duplicate_of_warning? {warning : Diagnostic}
    (h : line.warning? catalog filename all = some warning) :
    ∃ canonical first, warning =
      duplicate filename canonical first (trimmedSpan line.offset line.text) := by
  rcases Option.bind_eq_some_iff.mp h with ⟨canonical, -, h⟩
  rcases Option.map_eq_some_iff.mp h with ⟨first, -, rfl⟩
  exact ⟨canonical, first.number, rfl⟩

end Line

end Listing

end Signatures
