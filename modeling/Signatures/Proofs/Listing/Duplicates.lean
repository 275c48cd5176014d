import Signatures.Proofs.Listing.Checking
import Signatures.Proofs.Signature.Blanks
import Signatures.Proofs.Signature.RoundTrip

/-!
# The duplicates of a listing

Under a catalog that comes from adding extensions, two lines have the same canonical text exactly if they
list the same signature. So a line is reported as a duplicate if a line before it lists its signature, and
the first such line is named. The span of the report is that of the text of the line without the blanks
around it, which is a text of the same signature.
-/

namespace Signatures

open Text

namespace Listing

variable {catalog : Catalog} {filename : String} {source : List Char} {line first : Line}
  {all : List Line} {s : Signature}

/-- The line is the first of a text that lists a signature. -/
def IsFirst (catalog : Catalog) (source : List Char) (s : Signature) (first : Line) : Prop :=
  first.StandsIn source ∧ first.Lists catalog s ∧
    ∀ other : Line, other.StandsIn source → other.Lists catalog s → first.number ≤ other.number

theorem exists_trimmedSpan {text : List Char} (h : IsListed text) (offset : Nat) :
    ∃ blanks trailing, text = blanks ++ (dropRight isBlank (trimLeft text) ++ trailing) ∧
      (∀ c ∈ blanks, isBlank c = true) ∧ (∀ c ∈ trailing, isBlank c = true) ∧
      trimmedSpan offset text = ⟨offset + byteSize blanks,
        offset + byteSize blanks + byteSize (dropRight isBlank (trimLeft text))⟩ := by
  rcases h with ⟨blanks, c, rest, htext, hblanks, hc, -⟩
  rcases exists_trim htext hblanks hc with ⟨trailing, hsplit, htrailing, hleft, hright⟩
  refine ⟨blanks, trailing, hsplit, hblanks, htrailing, ?_⟩
  have hsize := congrArg byteSize hleft
  rw [byteSize_append] at hsize
  have hstart : byteSize text - byteSize (trimLeft text) = byteSize blanks := by omega
  rw [trimmedSpan, hstart, hright, byteSize_append, Nat.add_assoc]

namespace Line

theorem Fails.not_lists {error : Error} (h : line.Fails catalog error) (s : Signature) :
    ¬ line.Lists catalog s := by
  intro hs
  exact hs.2.not_rejects error h.2

/-- A line has the canonical text of a signature exactly if it lists the signature. -/
theorem canonical?_eq_some_render_iff (h : catalog.Valid) (hs : s.WellFormed catalog.knows) :
    line.canonical? catalog = some s.render ↔ line.Lists catalog s := by
  rw [canonical?_eq_some_iff]
  constructor
  · rintro ⟨t, ht, htext⟩
    have heq := h.eq_of_render_eq (Catalog.wellFormed_of_parse ht.2.parse) hs htext
    exact heq ▸ ht
  · intro hlists
    exact ⟨s, hlists, rfl⟩

/-- The first line with the canonical text of a signature is the first that lists the signature. -/
theorem first?_eq_some_iff (h : catalog.Valid) (hs : s.WellFormed catalog.knows)
    (hall : IsListing source all) :
    first? catalog all s.render = some first ↔ IsFirst catalog source s first := by
  have hordered := hall.ordered
  constructor
  · intro hfind
    rcases List.find?_eq_some_iff_append.mp hfind with ⟨hfound, earlier, later, rfl, hearlier⟩
    refine ⟨(hall.mem_iff first).mp (by simp),
      (canonical?_eq_some_render_iff h hs).mp (by simpa using hfound), ?_⟩
    intro other hother hlists
    rcases List.mem_append.mp ((hall.mem_iff other).mpr hother) with hmem | hmem
    · have hnot := hearlier other hmem
      simp [(canonical?_eq_some_render_iff h hs).mpr hlists] at hnot
    · rcases List.mem_cons.mp hmem with rfl | hmem
      · exact Nat.le_refl _
      · have hlater := (List.pairwise_append.mp hordered).2.1
        exact Nat.le_of_lt (List.rel_of_pairwise_cons hlater hmem)
  · rintro ⟨hstands, hlists, hleast⟩
    rcases List.append_of_mem ((hall.mem_iff first).mpr hstands) with ⟨earlier, later, rfl⟩
    have hcanonical := (canonical?_eq_some_render_iff h hs).mpr hlists
    refine List.find?_eq_some_iff_append.mpr ⟨by simp [hcanonical], earlier, later, rfl, ?_⟩
    intro other hother
    have hlt := (List.pairwise_append.mp hordered).2.2 other hother first List.mem_cons_self
    rw [Bool.not_eq_true', beq_eq_false_iff_ne]
    intro htext
    have hother' := (canonical?_eq_some_render_iff h hs).mp htext
    have hle := hleast other ((hall.mem_iff other).mp (List.mem_append_left _ hother)) hother'
    omega

theorem exists_isFirst (h : catalog.Valid) (hall : IsListing source all) (hstands : line.StandsIn source)
    (hlists : line.Lists catalog s) : ∃ first, IsFirst catalog source s first := by
  have hs := Catalog.wellFormed_of_parse hlists.2.parse
  cases hfind : first? catalog all s.render with
  | none =>
    have hnot := List.find?_eq_none.mp hfind line ((hall.mem_iff line).mpr hstands)
    simp [(canonical?_eq_some_render_iff h hs).mpr hlists] at hnot
  | some first => exact ⟨first, (first?_eq_some_iff h hs hall).mp hfind⟩

theorem warning?_eq_some_iff (h : catalog.Valid) (hall : IsListing source all) {warning : Diagnostic} :
    line.warning? catalog filename all = some warning ↔
      ∃ s first, line.Lists catalog s ∧ IsFirst catalog source s first ∧ first.number < line.number ∧
        warning = duplicate filename s.render first.number (trimmedSpan line.offset line.text) := by
  rw [warning?_eq_some_iff_first?]
  constructor
  · rintro ⟨canonical, first, hcanonical, hfirst, hlt, rfl⟩
    rcases canonical?_eq_some_iff.mp hcanonical with ⟨s, hlists, rfl⟩
    have hs := Catalog.wellFormed_of_parse hlists.2.parse
    exact ⟨s, first, hlists, (first?_eq_some_iff h hs hall).mp hfirst, hlt, rfl⟩
  · rintro ⟨s, first, hlists, hfirst, hlt, rfl⟩
    have hs := Catalog.wellFormed_of_parse hlists.2.parse
    exact ⟨s.render, first, canonical?_eq_some_iff.mpr ⟨s, hlists, rfl⟩,
      (first?_eq_some_iff h hs hall).mpr hfirst, hlt, rfl⟩

/-- A line is warned about exactly if a line before it lists its signature. -/
theorem isSome_warning?_iff (h : catalog.Valid) (hall : IsListing source all) :
    (line.warning? catalog filename all).isSome = true ↔
      ∃ s, line.Lists catalog s ∧
        ∃ earlier : Line, earlier.StandsIn source ∧ earlier.number < line.number ∧
          earlier.Lists catalog s := by
  rw [Option.isSome_iff_exists]
  simp only [warning?_eq_some_iff h hall]
  constructor
  · rintro ⟨warning, s, first, hlists, hfirst, hlt, -⟩
    exact ⟨s, hlists, first, hfirst.1, hlt, hfirst.2.1⟩
  · rintro ⟨s, hlists, earlier, hstands, hlt, hearlier⟩
    rcases exists_isFirst h hall hstands hearlier with ⟨first, hfirst⟩
    have hle := hfirst.2.2 earlier hstands hearlier
    exact ⟨_, s, first, hlists, hfirst, Nat.lt_of_le_of_lt hle hlt, rfl⟩

/-- The span of a warning is that of the text of its line without the blanks around it, which is a text of
the same signature. -/
theorem Lists.slice?_trimmedSpan (hstands : line.StandsIn source)
    (h : line.Lists catalog s) :
    slice? source (trimmedSpan line.offset line.text).start (trimmedSpan line.offset line.text).stop =
        some (dropRight isBlank (trimLeft line.text)) ∧
      catalog.parse (String.ofList (dropRight isBlank (trimLeft line.text))) = .ok s := by
  rcases exists_trimmedSpan h.1 line.offset with ⟨blanks, trailing, hsplit, hblanks, htrailing, hspan⟩
  rcases hstands.exists_split with ⟨before, after, hsource, hoffset, -, -⟩
  have hall : source = (before ++ blanks) ++
      (dropRight isBlank (trimLeft line.text) ++ (trailing ++ after)) := by
    have hmiddle := congrArg (fun text => before ++ (text ++ after)) hsplit
    rw [hsource]
    exact hmiddle.trans (by simp only [List.append_assoc])
  constructor
  · rw [hspan, hoffset, ← byteSize_append]
    exact slice?_eq_some_iff.mpr ⟨before ++ blanks, trailing ++ after, hall, rfl, rfl⟩
  · refine Catalog.parse_of_blanks ?_ hblanks htrailing h.2.parse
    rw [String.toList_ofList]
    exact hsplit

theorem filter_duplicate_diagnostic? (all : List Line) :
    (line.diagnostic? catalog filename all).filter (fun d => d.kind == .duplicate) =
      line.warning? catalog filename all := by
  unfold diagnostic?
  cases herror : line.error? catalog with
  | some error =>
    have hkind : (line.errorDiagnostic filename error).kind ≠ .duplicate := by
      cases error <;> exact nofun
    rw [warning?_of_error? herror]
    simp [Option.filter, hkind]
  | none =>
    cases hwarning : line.warning? catalog filename all with
    | none => rfl
    | some warning =>
      rcases exists_duplicate_of_warning? hwarning with ⟨canonical, first, rfl⟩
      rfl

end Line

theorem filter_duplicate_check (catalog : Catalog) (source filename : String) :
    (check catalog source filename).filter (fun d => d.kind == .duplicate) =
      (linesOf source).filterMap fun line => line.warning? catalog filename (linesOf source) := by
  rw [check_eq, List.filter_filterMap]
  simp only [Line.filter_duplicate_diagnostic?]

end Listing

open Listing

namespace Catalog

variable {catalog : Catalog}

/-- The duplicates of a listing are, in the order of its lines, about those whose signature a line before
them lists, one for each. Its message names the signature and its note the first line that lists it, and its
span is that of the text of its line without the blanks around it, which is a text of the signature. A line
that fails is no duplicate, nor the first line of any signature. -/
theorem Reachable.check_duplicates (h : catalog.Reachable) (source filename : String) :
    IsListing source.toList (linesOf source) ∧
      (check catalog source filename).filter (fun d => d.kind == .duplicate) =
        (linesOf source).filterMap (fun line => line.warning? catalog filename (linesOf source)) ∧
      ∀ line : Line, line.StandsIn source.toList →
        ((line.warning? catalog filename (linesOf source)).isSome = true ↔
          ∃ s, line.Lists catalog s ∧
            ∃ earlier : Line, earlier.StandsIn source.toList ∧ earlier.number < line.number ∧
              earlier.Lists catalog s) ∧
        (∀ warning, line.warning? catalog filename (linesOf source) = some warning →
          ∃ s first text, line.Lists catalog s ∧ IsFirst catalog source.toList s first ∧
            warning = duplicate filename s.render first.number (trimmedSpan line.offset line.text) ∧
            warning.severity = .warning ∧
            warning.message = s!"duplicate signature `{s.render}`" ∧
            warning.notes = [s!"first listed on line {first.number}"] ∧
            text = dropRight isBlank (trimLeft line.text) ∧
            slice? source.toList warning.span.start warning.span.stop = some text ∧
            catalog.parse (String.ofList text) = .ok s) ∧
        ∀ error, line.Fails catalog error →
          line.warning? catalog filename (linesOf source) = none ∧
            ∀ s, ¬ IsFirst catalog source.toList s line := by
  have hall := isListing_linesOf source
  refine ⟨hall, filter_duplicate_check catalog source filename, ?_⟩
  intro line hstands
  refine ⟨Line.isSome_warning?_iff h.valid hall, ?_, ?_⟩
  · intro warning hwarning
    rcases (Line.warning?_eq_some_iff h.valid hall).mp hwarning with ⟨s, first, hlists, hfirst, -, rfl⟩
    rcases hlists.slice?_trimmedSpan hstands with ⟨hslice, hparse⟩
    exact ⟨s, first, _, hlists, hfirst, rfl, rfl, rfl, rfl, rfl, hslice, hparse⟩
  · intro error hfails
    refine ⟨?_, fun s hfirst => hfails.not_lists s hfirst.2.1⟩
    rw [Option.eq_none_iff_forall_ne_some]
    intro warning hwarning
    rcases (Line.warning?_eq_some_iff h.valid hall).mp hwarning with ⟨s, first, hlists, -⟩
    exact hfails.not_lists s hlists

/-- The third line lists the signature of the first with other blanks. The second and the fourth have the
same text, but no signature. -/
theorem check_duplicates_points :
    points.Reachable ∧
      (check points "list<point<1,n>>\npoint<\n list< point<1, n>>\r\npoint<" "types").filter
          (fun d => d.kind == .duplicate) =
        [{ kind := .duplicate
           severity := .warning
           message := "duplicate signature `list<point<1,n>>`"
           span := ⟨25, 43⟩
           filename := "types"
           notes := ["first listed on line 1"]
           help := none }] := by
  refine ⟨reachable_points, ?_⟩
  rw [(Reachable.check_duplicates reachable_points _ _).2.1]
  decide +kernel

end Catalog

end Signatures
