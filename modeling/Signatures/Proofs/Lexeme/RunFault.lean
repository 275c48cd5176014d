import Signatures.Proofs.Lexeme.Run
import Signatures.Proofs.Signature.Parsing

/-!
# The first malformed run

A run that no token is read from has a fault, which is told by the run and the character behind it and is
about these. A text is cut into lexemes exactly if none of its runs is malformed. Otherwise the first
malformed run decides: the text before it is cut into lexemes, and the fault of the run is the fault of the
text, whatever comes later.
-/

namespace Signatures

open Text Text.Decimal Lexeme

namespace Run

/-- The characters of a run, and the letter or `_` behind it if it is a number. -/
def extent (run : Run) : List Char :=
  match integer? run.text, run.after with
  | some _, c :: _ => if isIdentStart c then run.text ++ [c] else run.text
  | _, _ => run.text

/-- The fault of a run that is no token. A number that a letter follows has this fault even if it does not
fit in 32 bits. -/
inductive Fault : Run → LexFault → Prop where
  | loneMinus {before after : List Char} (h : ∀ d ∈ after.head?, d.isDigit = false) :
      Fault ⟨before, ['-'], after⟩ (.loneMinus (byteSize before))
  | wordInNumber {before text after : List Char} {n : Int} {c : Char} (h : integer? text = some n)
      (hc : isIdentStart c = true) :
      Fault ⟨before, text, c :: after⟩
        (.unrecognized c ⟨byteSize (before ++ text), byteSize (before ++ text) + c.utf8Size⟩)
  | outOfRange {before digits after : List Char} (h : IsDigits digits) (hvalue : ¬ IsInt32 digits)
      (hends : NoWord after) :
      Fault ⟨before, digits, after⟩ (.outOfRange (String.ofList digits) (byteSize before))
  | negative {before digits after : List Char} {d : Char} (h : IsDigits (d :: digits))
      (hvalue : ¬ IsInt32 ('-' :: d :: digits)) (hends : NoWord after) :
      Fault ⟨before, '-' :: d :: digits, after⟩
        (.unrecognized d ⟨byteSize before + 1, byteSize before + 1 + byteSize (d :: digits)⟩)
  | stray {before after : List Char} {c : Char} (hstart : isIdentStart c = false)
      (hdigit : c.isDigit = false) (hmark : c ∉ ['-', '<', '>', ',', '?']) :
      Fault ⟨before, [c], after⟩ (.unrecognized c ⟨byteSize before, byteSize before + c.utf8Size⟩)

section

variable {before text after : List Char} {c : Char} {fault : LexFault}

theorem utf8Size_minus : ('-' : Char).utf8Size = 1 := by decide

theorem Fault.malformed {run : Run} (h : run.Fault fault) : run.Malformed := by
  have hrange {text : List Char} {n : Int} (htext : integer? text = some n) (hvalue : ¬ IsInt32 text) :
      n < -2147483648 ∨ 2147483647 < n := by
    refine Decidable.byContradiction fun hn => hvalue (isInt32_iff.mpr ⟨.ofInt n, ?_⟩)
    rw [int32?, htext, Option.bind_some, toInt32?, if_pos (by omega)]
  cases h with
  | loneMinus h => exact .loneMinus h
  | wordInNumber h hc => exact .wordInNumber h hc
  | outOfRange h hvalue hends =>
    have htext := integer?_eq_some_iff.mpr (.inl ⟨h, rfl⟩)
    exact .outOfRange htext (hrange htext hvalue)
  | negative h hvalue hends =>
    have htext := integer?_eq_some_iff.mpr (.inr ⟨_, rfl, h, rfl⟩)
    exact .outOfRange htext (hrange htext hvalue)
  | stray hstart hdigit hmark => exact .stray hstart hdigit hmark

/-- A fault is told by the run and the character behind it. -/
theorem Fault.of_head? {after' : List Char} (h : Fault ⟨before, text, after⟩ fault)
    (hhead : after'.head? = after.head?) : Fault ⟨before, text, after'⟩ fault := by
  have hword (hends : NoWord after) : NoWord after' := by rwa [NoWord, hhead]
  cases h with
  | loneMinus h => exact .loneMinus (by rwa [hhead])
  | @wordInNumber _ _ _ n c h hc =>
    rcases List.head?_eq_some_iff.mp hhead with ⟨rest, rfl⟩
    exact .wordInNumber h hc
  | outOfRange h hvalue hends => exact .outOfRange h hvalue (hword hends)
  | negative h hvalue hends => exact .negative h hvalue (hword hends)
  | stray hstart hdigit hmark => exact .stray hstart hdigit hmark

theorem byteSize_text_le_extent (run : Run) : byteSize run.text ≤ byteSize run.extent := by
  unfold extent
  split
  · split
    · simp
    · exact Nat.le_refl _
  · exact Nat.le_refl _

theorem Fault.span_bounds {run : Run} (h : run.Fault fault) :
    byteSize run.before ≤ fault.span.start ∧
      fault.span.stop ≤ byteSize run.before + byteSize run.extent := by
  have htext := run.byteSize_text_le_extent
  cases h with
  | loneMinus h =>
    rw [byteSize_cons, utf8Size_minus] at htext
    exact ⟨Nat.le_refl _, Nat.add_le_add_left htext _⟩
  | wordInNumber h hc => simp [LexFault.span, extent, h, hc, Nat.add_assoc]
  | outOfRange h hvalue hends =>
    rcases List.exists_cons_of_ne_nil h.1 with ⟨d, ds, rfl⟩
    have hd := d.utf8Size_pos
    rw [byteSize_cons] at htext
    exact ⟨Nat.le_refl _, Nat.add_le_add_left (by omega) _⟩
  | @negative before digits after d h hvalue hends =>
    rw [byteSize_cons, utf8Size_minus] at htext
    exact ⟨Nat.le_add_right _ _, by simp only [LexFault.span]; omega⟩
  | @stray before after c hstart hdigit hmark =>
    rw [byteSize_cons] at htext
    exact ⟨Nat.le_refl _, Nat.add_le_add_left (by omega) _⟩

theorem ofText?_eq_none {cs : List Char} (h : ¬ IsInt32 cs) : Literal.ofText? (String.ofList cs) = none := by
  rw [← Option.not_isSome_iff_eq_none, Literal.ofText?_isSome_iff, String.toList_ofList]
  exact h

theorem readLiteral_of_word {sign digits : List Char} {offset : Nat} (h : IsDigits digits)
    (hc : isIdentStart c = true) :
    readLiteral sign offset (digits ++ c :: after) =
      .error (.unrecognized c ⟨offset + byteSize digits, offset + byteSize digits + c.utf8Size⟩) := by
  have hstop : ∀ d ∈ (c :: after).head?, d.isDigit = false := by
    rintro d ⟨⟩
    exact isDigit_eq_false_of_isIdentStart hc
  simp only [readLiteral, takeWhile_append_of_head h.2 hstop, dropWhile_append_of_head h.2 hstop,
    List.head?_cons, Option.filter_some, isIdentRest_of_isIdentStart hc, if_true]

theorem readLiteral_of_outOfRange {digits : List Char} (offset : Nat) (h : IsDigits digits)
    (hvalue : ¬ IsInt32 digits) (hends : NoWord after) :
    readLiteral [] offset (digits ++ after) = .error (.outOfRange (String.ofList digits) offset) := by
  simp only [readLiteral, takeWhile_append_of_head h.2 hends.isDigit_eq_false,
    dropWhile_append_of_head h.2 hends.isDigit_eq_false, noWord_iff.mp hends, List.nil_append,
    ofText?_eq_none hvalue]

theorem readLiteral_of_negative {digits : List Char} {d : Char} (offset : Nat) (h : IsDigits (d :: digits))
    (hvalue : ¬ IsInt32 ('-' :: d :: digits)) (hends : NoWord after) :
    readLiteral ['-'] offset (d :: digits ++ after) =
      .error (.unrecognized d ⟨offset, offset + byteSize (d :: digits)⟩) := by
  simp only [readLiteral, takeWhile_append_of_head h.2 hends.isDigit_eq_false,
    dropWhile_append_of_head h.2 hends.isDigit_eq_false, noWord_iff.mp hends, List.singleton_append,
    ofText?_eq_none hvalue]

theorem readToken_digits {offset : Nat} {digits cs : List Char} (h : IsDigits digits)
    (htext : c :: cs = digits ++ after) :
    readToken offset c cs = readLiteral [] offset (digits ++ after) := by
  rcases List.exists_cons_of_ne_nil h.1 with ⟨d, ds, rfl⟩
  rw [List.cons_append] at htext
  cases htext
  rw [readToken, if_pos (h.2 c List.mem_cons_self), List.cons_append]

theorem readToken_minus_digits {offset : Nat} {digits cs : List Char} (h : IsDigits digits)
    (htext : c :: cs = '-' :: digits ++ after) :
    readToken offset c cs = readLiteral ['-'] (offset + 1) (digits ++ after) := by
  rcases List.exists_cons_of_ne_nil h.1 with ⟨d, ds, rfl⟩
  rw [List.cons_append] at htext
  cases htext
  have hany : ((d :: ds ++ after).head?.any Char.isDigit) = true := h.2 d List.mem_cons_self
  rw [readToken, if_neg (by decide), if_pos rfl, if_pos hany]

theorem Fault.readToken {cs : List Char} (h : Fault ⟨before, text, after⟩ fault)
    (htext : c :: cs = text ++ after) : readToken (byteSize before) c cs = .error fault := by
  cases h with
  | loneMinus h =>
    rw [List.singleton_append] at htext
    cases htext
    have hany : ¬ (after.head?.any Char.isDigit) = true := by
      cases hhead : after.head? with
      | none => simp
      | some d => simp [h d hhead]
    rw [Lexeme.readToken, if_neg (by decide), if_pos rfl, if_neg hany]
  | @wordInNumber _ _ _ n d h hd =>
    rcases integer?_eq_some_iff.mp h with ⟨hdigits, -⟩ | ⟨digits, rfl, hdigits, -⟩
    · rw [readToken_digits hdigits htext, readLiteral_of_word hdigits hd, byteSize_append]
    · rw [readToken_minus_digits hdigits htext, readLiteral_of_word hdigits hd, byteSize_append,
        byteSize_cons, utf8Size_minus, Nat.add_assoc]
  | outOfRange h hvalue hends =>
    rw [readToken_digits h htext, readLiteral_of_outOfRange _ h hvalue hends]
  | negative h hvalue hends =>
    rw [readToken_minus_digits h htext, readLiteral_of_negative _ h hvalue hends]
  | stray hstart hdigit hmark =>
    cases htext
    simp only [List.mem_cons, List.not_mem_nil, or_false, not_or] at hmark
    simp [Lexeme.readToken, hstart, hdigit, hmark]

theorem isIdentStart_of_isIdentRest (h : isIdentRest c = true) (hdigit : c.isDigit = false) :
    isIdentStart c = true := by
  simp only [isIdentRest, Char.isAlphanum, hdigit, Bool.or_false] at h
  exact h

theorem fault_of_readLiteral {sign cs : List Char} (hsign : sign = [] ∨ sign = ['-'])
    (hne : cs.takeWhile Char.isDigit ≠ [])
    (h : readLiteral sign (byteSize (before ++ sign)) cs = .error fault) :
    Fault ⟨before, sign ++ cs.takeWhile Char.isDigit, cs.dropWhile Char.isDigit⟩ fault := by
  have hdigits : IsDigits (cs.takeWhile Char.isDigit) :=
    ⟨hne, fun d hd => List.all_eq_true.mp List.all_takeWhile d hd⟩
  have hafter := @head?_dropWhile Char.isDigit cs
  simp only [readLiteral] at h
  generalize cs.takeWhile Char.isDigit = digits at hdigits h
  generalize cs.dropWhile Char.isDigit = after at hafter h
  split at h
  · next d hd =>
    cases h
    rcases Option.filter_eq_some_iff.mp hd with ⟨hhead, hrest⟩
    have hstart := isIdentStart_of_isIdentRest hrest (hafter d hhead)
    rcases List.head?_eq_some_iff.mp hhead with ⟨rest, rfl⟩
    obtain ⟨n, hn⟩ : ∃ n, integer? (sign ++ digits) = some n := by
      rcases hsign with rfl | rfl
      · exact ⟨_, integer?_eq_some_iff.mpr (.inl ⟨hdigits, rfl⟩)⟩
      · exact ⟨_, integer?_eq_some_iff.mpr (.inr ⟨_, rfl, hdigits, rfl⟩)⟩
    have hfault := @Fault.wordInNumber before _ rest n d hn hstart
    rwa [← List.append_assoc, byteSize_append] at hfault
  · next hends =>
    split at h
    · cases h
    · next hnone =>
      have hvalue : ¬ IsInt32 (sign ++ digits) := by
        rw [← @String.toList_ofList (sign ++ digits), ← Literal.ofText?_isSome_iff, hnone]
        exact Bool.false_ne_true
      rcases hsign with rfl | rfl
      · cases h
        rw [List.append_nil]
        exact .outOfRange hdigits hvalue (noWord_iff.mpr hends)
      · rcases List.exists_cons_of_ne_nil hdigits.1 with ⟨d, ds, rfl⟩
        cases h
        rw [byteSize_append, byteSize_cons, byteSize_nil, utf8Size_minus]
        exact .negative hdigits hvalue (noWord_iff.mpr hends)

theorem fault_of_readToken {cs : List Char} (h : Lexeme.readToken (byteSize before) c cs = .error fault) :
    Fault (first before c cs) fault := by
  rw [Lexeme.readToken] at h
  split at h
  · next hdigit =>
    rw [first, goesOn_of_isDigit hdigit, ← List.takeWhile_cons_of_pos hdigit,
      ← List.dropWhile_cons_of_pos hdigit]
    refine fault_of_readLiteral (.inl rfl) ?_ (by rwa [List.append_nil])
    rw [List.takeWhile_cons_of_pos hdigit]
    exact List.cons_ne_nil _ _
  split at h
  · next hdigit hminus =>
    subst hminus
    split at h
    · next hany =>
      rw [first, goesOn_minus]
      have hsize : byteSize (before ++ ['-']) = byteSize before + 1 := byteSize_append before ['-']
      refine fault_of_readLiteral (.inr rfl) ?_ (by rwa [hsize])
      rcases (Option.any_eq_true_iff_get _ _).mp hany with ⟨hsome, hdigit⟩
      rcases List.head?_eq_some_iff.mp (Option.some_get hsome).symm with ⟨rest, hcs⟩
      rw [hcs, List.takeWhile_cons_of_pos hdigit]
      exact List.cons_ne_nil _ _
    · next hany =>
      cases h
      have hcs : ∀ d ∈ cs.head?, d.isDigit = false := by
        intro d hd
        rw [Option.mem_def.mp hd, Option.any_some] at hany
        exact eq_false_of_ne_true hany
      rw [first_of_head (by rwa [goesOn_minus])]
      exact .loneMinus hcs
  split at h
  · cases h
  split at h
  · cases h
  split at h
  · cases h
  split at h
  · cases h
  split at h
  · cases h
  next hdigit hminus hstart hlt hgt hcomma hquestion =>
    cases h
    have hstart := eq_false_of_ne_true hstart
    have hdigit := eq_false_of_ne_true hdigit
    rw [first_of_head fun d _ => goesOn_of_other hstart hdigit hminus d]
    exact .stray hstart hdigit (by simp [hminus, hlt, hgt, hcomma, hquestion])

/-- A text that is not cut into lexemes has a first malformed run. The text before it spells lexemes, and its
fault is the one of the whole text. -/
theorem exists_first_fault {cs : List Char} (h : scanFrom 0 cs = .error fault) :
    ∃ earlier before c more later lexemes, runsAfter [] cs = earlier ++ first before c more :: later ∧
      (∀ run ∈ earlier, ¬ run.Malformed) ∧ cs = before ++ c :: more ∧
      Spells 0 before lexemes (c :: more) ∧ isBlank c = false ∧ (first before c more).Fault fault := by
  rcases scanFrom_eq_error_iff.mp h with ⟨before, c, more, lexemes, rfl, hspells, hc, hread⟩
  rcases runsAfter_of_spells hspells [] with ⟨earlier, hearlier, hruns⟩
  rw [runsAfter, if_neg (ne_true_of_eq_false hc), List.nil_append] at hruns
  rw [Nat.zero_add] at hread
  exact ⟨earlier, before, c, more, _, lexemes, hruns, hearlier, rfl, hspells, hc, fault_of_readToken hread⟩

/-- A text whose runs are not malformed is cut into lexemes, and no other text is. -/
theorem exists_malformed_iff {cs : List Char} :
    (∃ fault, scanFrom 0 cs = .error fault) ↔ ∃ run ∈ runsAfter [] cs, run.Malformed := by
  constructor
  · rintro ⟨fault, h⟩
    rcases exists_first_fault h with
      ⟨earlier, before, c, more, later, lexemes, hruns, -, -, -, -, hfault⟩
    rw [hruns]
    exact ⟨_, List.mem_append_right _ List.mem_cons_self, hfault.malformed⟩
  · rintro ⟨run, hmem, hmalformed⟩
    cases hscan : scanFrom 0 cs with
    | error fault => exact ⟨fault, rfl⟩
    | ok lexemes =>
      rcases runsAfter_of_spells (scanFrom_eq_ok_iff.mp hscan) [] with ⟨earlier, hearlier, hruns⟩
      rw [List.append_nil, runsAfter, List.append_nil] at hruns
      exact absurd hmalformed (hearlier run (hruns ▸ hmem))

/-- A text has the fault of a run behind a part that spells lexemes, and so has every other text up to the
character behind this run. -/
theorem Fault.scanFrom {lexemes : List Lexeme} {after' more : List Char}
    (h : Fault ⟨before, text, after⟩ fault) (htext : c :: more = text ++ after')
    (hhead : after'.head? = after.head?) (hc : isBlank c = false)
    (hspells : Spells 0 before lexemes (c :: more)) :
    scanFrom 0 (before ++ c :: more) = .error fault := by
  have hread := (h.of_head? hhead).readToken htext
  rw [← Nat.zero_add (byteSize before)] at hread
  exact scanFrom_eq_error_iff.mpr ⟨before, c, more, lexemes, rfl, hspells, hc, hread⟩

end

end Run

/-- A text is cut into lexemes exactly if none of its runs is malformed. Otherwise the text before its first
malformed run is cut into lexemes, and the error is about this run, with the letter that must not follow it.
Every other text that is the same up to the character behind this run, or to the end of both texts, has the
same error. -/
theorem Lexeme.first_malformed_run_decides (source : String) :
    ((∃ fault, scan source = .error fault) ↔ ∃ run ∈ Run.runs source, run.Malformed) ∧
      ∀ fault, scan source = .error fault →
        ∃ earlier run later, Run.runs source = earlier ++ run :: later ∧
          (∀ other ∈ earlier, ¬ other.Malformed) ∧ run.Malformed ∧
          source.toList = run.before ++ (run.text ++ run.after) ∧
          (∃ lexemes, scan (String.ofList run.before) = .ok lexemes) ∧
          byteSize run.before ≤ fault.span.start ∧
          fault.span.stop ≤ byteSize run.before + byteSize run.extent ∧
          (∀ catalog : Catalog, catalog.parse source = .error (.lex fault.message fault.span)) ∧
          ∀ (other : String) (rest : List Char),
            other.toList = run.before ++ (run.text ++ (run.after.take 1 ++ rest)) →
            (run.after = [] → rest = []) → scan other = .error fault ∧
              ∀ catalog : Catalog, catalog.parse other = .error (.lex fault.message fault.span) := by
  refine ⟨Run.exists_malformed_iff, ?_⟩
  intro fault hscan
  rcases Run.exists_first_fault hscan with
    ⟨earlier, before, c, more, later, lexemes, hruns, hearlier, hsource, hspells, hc, hfault⟩
  have hsplit : c :: more = (Run.first before c more).text ++ (Run.first before c more).after := by
    simp [Run.first]
  have hbefore : Spells 0 before lexemes [] := hspells.of_rest fun _ => noWord_nil
  refine ⟨earlier, Run.first before c more, later, hruns, hearlier, hfault.malformed, ?_, ?_,
    hfault.span_bounds.1, hfault.span_bounds.2, fun _ => Catalog.parse_of_scan_eq_error hscan, ?_⟩
  · rw [← hsplit]
    exact hsource
  · rw [scan, String.toList_ofList]
    exact ⟨lexemes, scanFrom_eq_ok_iff.mpr hbefore⟩
  · intro other rest hother hrest
    have hhead : ((Run.first before c more).after.take 1 ++ rest).head? =
        (Run.first before c more).after.head? := by
      cases hafter : (Run.first before c more).after with
      | nil => rw [hrest hafter]; rfl
      | cons d after => rfl
    have hscan' : scan other = .error fault := by
      rw [scan, hother]
      exact hfault.scanFrom rfl hhead hc (hspells.of_rest id)
    exact ⟨hscan', fun _ => Catalog.parse_of_scan_eq_error hscan'⟩

/-- The letter behind a number is the fault, and the minus sign after it does not matter. -/
example : Lexeme.scan "<5a -" = .error (.unrecognized 'a' ⟨2, 3⟩) := by cbv

end Signatures
