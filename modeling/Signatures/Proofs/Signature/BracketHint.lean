import Signatures.Proofs.Lexeme.Layout
import Signatures.Proofs.Shape.Brackets
import Signatures.Proofs.Signature.ErrorSpan

/-!
# The hint at a missing bracket

The hint that a closing bracket may be missing is given where a message speaks of the end of the input: as
what was found, or as what was expected. So it is given where brackets are missing at the end, but also for
a blank text and where a signature is followed by more tokens, and in these two cases no bracket is missing.
-/

namespace Signatures

open Text Lexeme Grammar

def Expectation.listing (expected : List Expectation) : String :=
  "expected " ++ " or ".intercalate (expected.map text) ++ ", found "

namespace Reading

/-- What a reading expects is one of seven lists, of which three name the end. -/
theorem expected_mem (reading : Reading) : reading.expected ∈
    [[.finish], [.lt, .finish], [.lt, .question, .finish], [.atom], [.comma, .gt], [.comma, .lt, .gt],
      [.comma, .lt, .gt, .question]] := by
  obtain ⟨lists, item⟩ := reading
  cases item with
  | none => simp [expected]
  | some item =>
    obtain ⟨a, nullable, args⟩ := item
    cases lists <;> cases nullable <;> cases args <;> simp [expected, Expectation.behind]

/-- The alternatives of a message speak of the end if it is one of them; otherwise no word of theirs is
`of`. -/
theorem contains_listing (reading : Reading) :
    (.finish ∈ reading.expected →
      "end of input".toList <:+: (Expectation.listing reading.expected).toList) ∧
      (.finish ∉ reading.expected →
        ¬ "end of".toList ++ [' '] <:+: (Expectation.listing reading.expected).toList) := by
  have hall : ∀ expected ∈ ([[.finish], [.lt, .finish], [.lt, .question, .finish], [.atom], [.comma, .gt],
      [.comma, .lt, .gt], [.comma, .lt, .gt, .question]] : List (List Expectation)),
      (.finish ∈ expected → contains "end of input".toList (Expectation.listing expected).toList = true) ∧
        (.finish ∉ expected →
          ¬ contains ("end of".toList ++ [' ']) (Expectation.listing expected).toList = true) := by
    decide +kernel
  have hreading := hall _ reading.expected_mem
  rwa [contains_eq_true_iff, contains_eq_true_iff] at hreading

/-- A message speaks of the end if that is what was found or one of the alternatives. No token can bring the
words into a message, for it holds no blank. -/
theorem mentionsEnd_message_iff (reading : Reading) {found : Option Token}
    (hfound : ∀ token ∈ found, token.Written) (index : Nat) :
    Error.mentionsEnd (GrammarFault.unexpected reading.expected found index).message = true ↔
      found = none ∨ .finish ∈ reading.expected := by
  have hmessage : (GrammarFault.unexpected reading.expected found index).message.toList =
      (Expectation.listing reading.expected).toList ++ (GrammarFault.foundText found).toList :=
    String.toList_append
  rw [Error.mentionsEnd, contains_eq_true_iff, hmessage]
  constructor
  · intro h
    cases found with
    | none => exact .inl rfl
    | some token =>
      right
      have hblank : ' ' ∉ (GrammarFault.foundText (some token)).toList := by
        have htoken := Token.isBlank_eq_false_of_mem_text (hfound token rfl) ' '
        simpa [GrammarFault.foundText] using fun hmem => absurd (htoken hmem) (by decide)
      have hof : "end of".toList ++ [' '] <:+: "end of input".toList := ⟨[], "input".toList, rfl⟩
      exact Decidable.byContradiction fun hfinish =>
        reading.contains_listing.2 hfinish (isInfix_of_isInfix_append (hof.trans h) hblank)
  · rintro (rfl | hfinish)
    · exact (List.suffix_append _ _).isInfix
    · exact (reading.contains_listing.1 hfinish).trans (List.prefix_append _ _).isInfix

end Reading

section Place

variable {source : String} {lexemes : List Lexeme}

theorem Lexeme.start_lt_byteSize (hscan : scan source = .ok lexemes) :
    ∀ lexeme ∈ lexemes, lexeme.span.start < byteSize source.toList := by
  intro lexeme hmem
  have hspells : Spells 0 source.toList lexemes [] := scanFrom_eq_ok_iff.mp hscan
  have hbounds := (hspells.liesIn lexeme hmem).bounds
  rcases Layout.exists_of_spells hspells with ⟨layout, hspaced, -, rfl⟩
  have hlt := hspaced.start_lt_stop lexeme hmem
  omega

theorem GrammarFault.span_eq_point_iff (hscan : scan source = .ok lexemes) {index : Nat}
    (h : index ≤ lexemes.length) (expected : List Expectation) (found : Option Token) :
    (unexpected expected found index).span lexemes (byteSize source.toList) =
      .point (byteSize source.toList) ↔ index = lexemes.length := by
  rw [GrammarFault.span, spanAt]
  cases hlexeme : lexemes[index]? with
  | some lexeme =>
    have hlt := start_lt_byteSize hscan lexeme (List.mem_of_getElem? hlexeme)
    have hindex := (List.getElem?_eq_some_iff.mp hlexeme).1
    refine iff_of_false (fun hspan => ?_) (by omega)
    rw [show lexeme.span = _ from hspan] at hlt
    exact Nat.lt_irrefl _ hlt
  | none =>
    have hlength := List.getElem?_eq_none_iff.mp hlexeme
    exact iff_of_true rfl (by omega)

/-- A number with a mark is before the end of its text. -/
theorem GrammarFault.span_markedNumber_ne {l : Literal} {rest : List Token}
    (hscan : scan source = .ok lexemes) (h : lexemes.map Lexeme.token = .int l :: .question :: rest) :
    markedNumber.span lexemes (byteSize source.toList) ≠ .point (byteSize source.toList) := by
  rcases List.map_eq_cons_iff.mp h with ⟨number, tail, rfl, -, htail⟩
  rcases List.map_eq_cons_iff.mp htail with ⟨mark, tail, rfl, -, -⟩
  have hlt := start_lt_byteSize hscan number List.mem_cons_self
  intro hspan
  have hstart := congrArg Span.start hspan
  exact absurd hstart (Nat.ne_of_lt hlt)

end Place

/-- The error is at the end of the text, and more opening than closing brackets stand before it. -/
structure Unclosed (source : String) (ts : List Token) (span : Span) : Prop where
  span_eq : span = .point (byteSize source.toList)
  count_lt : ts.count .gt < ts.count .lt

/-- The tokens lack no bracket: there are none, or they stop being the beginning of a signature only behind
one. -/
inductive LacksNone (ts : List Token) : Prop where
  | blank (h : ts = [])
  | behind {index : Nat} (hbreaks : BreaksAt ts index) (hlt : index < ts.length)
      (hsignature : IsSignature (ts.take index))

namespace Reading

variable {before after : List Token} {last : Reading}

theorem startsMarkedNumber_of_shape? {shape : Shape} (h : last.shape? = some shape) :
    last.startsMarkedNumber = false := by
  rcases shape?_eq_some_iff.mp h with ⟨rfl, halone⟩
  refine eq_false_of_ne_true fun hmarked => ?_
  generalize hlast : (⟨[], some shape⟩ : Reading) = last at hmarked
  cases startsMarkedNumber_iff.mp hmarked with
  | inside lists l earlier item => simp at hlast
  | ahead l =>
    cases hlast
    cases halone

/-- Where a run stops tells whether its tokens lack a bracket. -/
theorem lacksNone_iff (hrun : start.run? before = some last) (hstop : last.StopsBefore after)
    (hend : after = [] → last.shape? = none) :
    LacksNone (before ++ after) ↔ before ++ after = [] ∨ (after ≠ [] ∧ IsSignature before) := by
  have hbreaks := breaksAt_of_stopsBefore hrun hstop hend
  have hlength : before.length < (before ++ after).length ↔ after ≠ [] := by
    rw [List.length_append, ← List.length_pos_iff]
    omega
  constructor
  · rintro (hblank | ⟨hbreaks', hlt, hsignature⟩)
    · exact .inl hblank
    · rw [hbreaks'.eq hbreaks] at hlt hsignature
      rw [List.take_left] at hsignature
      exact .inr ⟨hlength.mp hlt, hsignature⟩
  · rintro (hblank | ⟨hne, hsignature⟩)
    · exact .blank hblank
    · refine .behind hbreaks (hlength.mpr hne) ?_
      rwa [List.take_left]

/-- Where a run stops before a fault, the message speaks of the end exactly if a bracket is missing there or
none is missing at all. -/
theorem mentionsEnd_unexpected_iff {source : String} {lexemes : List Lexeme}
    (hscan : scan source = .ok lexemes) (hts : lexemes.map Lexeme.token = before ++ after)
    (hrun : start.run? before = some last) (hstop : last.StopsBefore after)
    (hend : after = [] → last.shape? = none) (hmarked : last.startsMarkedNumber = false) :
    let fault := GrammarFault.unexpected last.expected after.head? before.length
    let span := fault.span lexemes (byteSize source.toList)
    (Error.mentionsEnd fault.message = true ↔
        Unclosed source (before ++ after) span ∨ LacksNone (before ++ after)) ∧
      (LacksNone (before ++ after) → ¬ Unclosed source (before ++ after) span) := by
  intro fault span
  have hwritten : ∀ token ∈ after.head?, token.Written := by
    intro token htoken
    refine written_of_scan hscan token ?_
    rw [hts]
    exact List.mem_append_right _ (List.mem_of_mem_head? htoken)
  have hlength : lexemes.length = before.length + after.length := by
    rw [← List.length_append, ← hts, List.length_map]
  have hspan : span = .point (byteSize source.toList) ↔ after = [] := by
    rw [GrammarFault.span_eq_point_iff hscan (by omega), ← List.length_eq_zero_iff]
    omega
  rw [last.mentionsEnd_message_iff hwritten, mem_expected_iff hrun hmarked, follows_finish_iff,
    lacksNone_iff hrun hstop hend]
  cases after with
  | nil =>
    have hmissing := eq_nil_or_count_lt hrun hmarked (hend rfl)
    have hunclosed : Unclosed source before span ↔ before.count .gt < before.count .lt :=
      ⟨fun h => h.count_lt, fun h => ⟨hspan.mpr rfl, h⟩⟩
    simp only [List.append_nil, List.head?_nil, true_or, true_iff, ne_eq, not_true_eq_false, false_and,
      or_false, hunclosed]
    exact ⟨hmissing.symm, by rintro rfl; exact Nat.lt_irrefl 0⟩
  | cons token after =>
    have hopen : ¬ Unclosed source (before ++ token :: after) span := fun h => by
      cases hspan.mp h.span_eq
    simp [hopen]

end Reading

theorem Grammar.IsMarkedNumber.not_lacksNone {ts : List Token} (h : IsMarkedNumber ts) :
    ¬ LacksNone ts := by
  rcases Reading.exists_run?_of_finish_eq_error (Shape.ofTokens_of_isMarkedNumber h) with
    ⟨before, last, after, rfl, hrun, hstop, hend, -⟩
  have hmarked := (Reading.isMarkedNumber_iff hrun hstop).mp h
  rw [Reading.lacksNone_iff hrun hstop hend]
  rintro (hblank | ⟨-, hsignature⟩)
  · rcases h with ⟨l, rest, heq, -⟩
    rw [hblank] at heq
    cases heq
  · rcases Reading.isSignature_iff_run?.mp hsignature with ⟨last', hrun', shape, hshape⟩
    rw [hrun, Option.some.injEq] at hrun'
    rw [hrun', Reading.startsMarkedNumber_of_shape? hshape] at hmarked
    cases hmarked

namespace Catalog

variable {catalog : Catalog} {source message : String} {span : Span}

def bracketHint : String := "the signature may be missing a closing '>'"

theorem mem_notes_grammar_iff (filename : String) :
    bracketHint ∈ ((Error.grammar message span).diagnostic filename source).notes ↔
      Error.mentionsEnd message = true := by
  change bracketHint ∈ (if Error.mentionsEnd message then [bracketHint] else []) ↔ _
  split <;> simp [*]

/-- The error of a text that is cut into lexemes but has no signature has the hint exactly if it is at the
end of the text and opening brackets before it have no closing ones, or if no bracket is missing: the text
has no lexemes, or a signature is followed by more of them. The last two exclude the first, so there the
hint is wrong. -/
theorem hints_at_bracket_iff (herror : catalog.parse source = .error (.grammar message span))
    (filename : String) :
    ∃ lexemes, scan source = .ok lexemes ∧
      (bracketHint ∈ ((Error.grammar message span).diagnostic filename source).notes ↔
        Unclosed source (lexemes.map Lexeme.token) span ∨ LacksNone (lexemes.map Lexeme.token)) ∧
      (LacksNone (lexemes.map Lexeme.token) → ¬ Unclosed source (lexemes.map Lexeme.token) span) := by
  rw [mem_notes_grammar_iff]
  cases hscan : scan source with
  | error fault =>
    rw [parse_of_scan_eq_error hscan] at herror
    cases herror
  | ok lexemes =>
    refine ⟨lexemes, rfl, ?_⟩
    rcases (parse_eq_error_iff hscan).mp herror with ⟨fault, hfault, heq⟩
    cases heq
    rcases Reading.exists_run?_of_finish_eq_error hfault with
      ⟨before, last, after, hts, hrun, hstop, hend, rfl⟩
    rw [Nat.zero_add, Reading.fault]
    by_cases hmarked : last.startsMarkedNumber = true
    · have hnumber := (Reading.isMarkedNumber_iff hrun hstop).mpr hmarked
      rw [← hts] at hnumber
      have hnot := hnumber.not_lacksNone
      rcases hnumber with ⟨l, rest, htokens, -⟩
      have hspan := GrammarFault.span_markedNumber_ne hscan htokens
      rw [if_pos hmarked]
      refine ⟨iff_of_false (by decide +kernel) ?_, fun h => absurd h hnot⟩
      rintro (hunclosed | hlacks)
      · exact hspan hunclosed.span_eq
      · exact hnot hlacks
    · rw [if_neg hmarked, hts]
      exact Reading.mentionsEnd_unexpected_iff hscan hts hrun hstop hend ((Bool.not_eq_true _).mp hmarked)

theorem hints_at_bracket_of_list :
    builtin.parse "list<i32" =
        .error (.grammar "expected ',' or '<' or '>' or '?', found end of input" ⟨8, 8⟩) ∧
      bracketHint ∈ ((Error.grammar "expected ',' or '<' or '>' or '?', found end of input"
        ⟨8, 8⟩).diagnostic "types" "list<i32").notes := by
  have hscan : scan "list<i32" = .ok [⟨.ident "list", ⟨0, 4⟩⟩, ⟨.lt, ⟨4, 5⟩⟩, ⟨.ident "i32", ⟨5, 8⟩⟩] :=
    eq_ok_of_toOption (by decide +kernel)
  have herror : builtin.parse "list<i32" =
      .error (.grammar "expected ',' or '<' or '>' or '?', found end of input" ⟨8, 8⟩) :=
    (parse_eq_error_iff hscan).mpr ⟨.unexpected [.comma, .lt, .gt, .question] none 3, rfl, rfl⟩
  rcases hints_at_bracket_iff herror "types" with ⟨lexemes, hscan', hiff, -⟩
  rw [hscan] at hscan'
  cases hscan'
  exact ⟨herror, hiff.mpr (.inl ⟨rfl, by decide⟩)⟩

/-- A list with a closing bracket too many has the hint, too. -/
theorem hint_at_surplus_bracket :
    builtin.parse "list<i32>>" = .error (.grammar "expected end of input, found '>'" ⟨9, 10⟩) ∧
      bracketHint ∈ ((Error.grammar "expected end of input, found '>'" ⟨9, 10⟩).diagnostic "types"
        "list<i32>>").notes ∧
      ∀ ts, ¬ Unclosed "list<i32>>" ts ⟨9, 10⟩ := by
  have hscan : scan "list<i32>>" = .ok [⟨.ident "list", ⟨0, 4⟩⟩, ⟨.lt, ⟨4, 5⟩⟩, ⟨.ident "i32", ⟨5, 8⟩⟩,
      ⟨.gt, ⟨8, 9⟩⟩, ⟨.gt, ⟨9, 10⟩⟩] := eq_ok_of_toOption (by decide +kernel)
  refine ⟨(parse_eq_error_iff hscan).mpr ⟨.unexpected [.finish] (some .gt) 4, rfl, rfl⟩, ?_, ?_⟩
  · exact mem_notes_grammar_iff "types" |>.mpr (by decide +kernel)
  · rintro ts ⟨hspan, -⟩
    exact absurd hspan (by decide)

end Catalog

end Signatures
